import TestHarness.Host.Turn

/-!
# Commands inside the shell

What the shell's own commands do.  A command that takes time leaves a task for it.

## Contents
* `signalNames`, `signalNumber?`, `signalText`
* directories and variables: `changeDirectory`, `setOptions`, `declareAll`, `makeLocal`
* signals: `setTraps`, `sendSignals`
* leaving: `leaveWith`, `returnWith`, `leaveLoops`
* `builtin?`, all of them by name, and `specialNames`
-/

namespace TestHarness

open Shell

/-! ## Signals by name -/

/-- The signals with their names and what is said of a process that they end. -/
def signalNames : List (Nat × String × String) :=
  [(1, "HUP", "Hangup"), (2, "INT", "Interrupt"), (3, "QUIT", "Quit"),
    (4, "ILL", "Illegal instruction"), (5, "TRAP", "Trace/breakpoint trap"), (6, "ABRT", "Aborted"),
    (7, "BUS", "Bus error"), (8, "FPE", "Floating point exception"), (9, "KILL", "Killed"),
    (10, "USR1", "User defined signal 1"), (11, "SEGV", "Segmentation fault"),
    (12, "USR2", "User defined signal 2"), (13, "PIPE", "Broken pipe"), (14, "ALRM", "Alarm clock"),
    (15, "TERM", "Terminated"), (16, "STKFLT", "Stack fault"), (17, "CHLD", "Child exited"),
    (18, "CONT", "Continued"), (19, "STOP", "Stopped (signal)"), (20, "TSTP", "Stopped"),
    (21, "TTIN", "Stopped (tty input)"), (22, "TTOU", "Stopped (tty output)"),
    (23, "URG", "Urgent I/O condition"), (24, "XCPU", "CPU time limit exceeded"),
    (25, "XFSZ", "File size limit exceeded"), (26, "VTALRM", "Virtual timer expired"),
    (27, "PROF", "Profiling timer expired"), (28, "WINCH", "Window changed"),
    (29, "POLL", "I/O possible"), (30, "PWR", "Power failure"), (31, "SYS", "Bad system call")]

/-- The number of the signal that a number or a name means; zero means the end of the shell. -/
def signalNumber? (text : Octets) : Option Nat :=
  match Octets.natural? text with
  | some n => if n ≤ 64 then some n else none
  | none =>
    let name := String.ofList (text.map Char.toUpper)
    if name = "EXIT" then some 0
    else if name = "IO" then some 29
    else (signalNames.find? fun (_, n, _) => n == name).map (·.1)

/-- The name of a signal. -/
def signalName (n : Nat) : Octets :=
  if n = 0 then "EXIT".toList
  else match signalNames.find? (·.1 = n) with
    | some (_, name, _) => name.toList
    | none => Octets.ofNat n

/-- What is said of a process that a signal has ended; nothing of some signals. -/
def signalText (n : Nat) : Octets :=
  if n = 2 ∨ n = 13 then []
  else match signalNames.find? (·.1 = n) with
    | some (_, _, text) => text.toList
    | none => "Unknown signal ".toList ++ Octets.ofNat n

namespace Turn

/-! ## Directories and variables -/

/-- Changes the working directory. -/
def changeDirectory (t : Turn) (args : List Octets) : Turn :=
  let scope := t.shell.scope
  let lookup (name : String) : Octets := (scope.store.lookup name.toList).getD []
  let (name, shows) := match args with
    | [] => (lookup "HOME", false)
    | ['-'] :: _ => (lookup "OLDPWD", true)
    | name :: _ => (name, false)
  let back := (t.complain ("cd: can't cd to ".toList ++ name)).withStatus 2
  match t.host.tree.resolve t.process.cwd (Host.pathOf name) with
  | .error _ => back
  | .ok location =>
    if !t.host.tree.isDirectory location then back
    else
      let text := Utility.pathText location
      let scope := (scope.set "OLDPWD".toList (Utility.pathText t.process.cwd)).set "PWD".toList text
      let t := { t with process := { t.process with cwd := location } }.withScope scope
      t.report "cd".toList (if shows then Report.ofOutput (text ++ ['\n']) else {})

/-- Turns the options of some letters on or off. -/
def setLetters (scope : Scope) (on : Bool) (letters : Octets) : Scope :=
  { scope with
    strict := if letters.contains 'u' then on else scope.strict
    stopsOnFailure := if letters.contains 'e' then on else scope.stopsOnFailure }

/-- Sets options and arguments. -/
def setOptions (scope : Scope) : List Octets → Scope
  | [] => scope
  | ['-', '-'] :: rest => { scope with arguments := rest }
  | [sign, 'o'] :: name :: rest =>
    let letters := if name = "errexit".toList then ['e'] else if name = "nounset".toList then ['u'] else []
    setOptions (setLetters scope (sign = '-') letters) rest
  | (sign :: letters) :: rest =>
    if sign = '-' ∨ sign = '+' then
      setOptions (setLetters scope (sign = '-') letters) rest
    else { scope with arguments := (sign :: letters) :: rest }
  | rest => { scope with arguments := rest }

/-- Declares variables, each with a value or without, and does something to the name of each. -/
def declare (scope : Scope) (note : Scope → Octets → Scope) (args : List Octets) :
    Except Octets Scope :=
  args.foldlM
    (fun scope arg =>
      match Octets.cut? '=' arg with
      | some (name, value) => (scope.setChecked name value).map fun scope => note scope name
      | none => .ok (note scope arg))
    scope

/-- The scope in which a variable may not be set again. -/
def markReadOnly (scope : Scope) (name : Octets) : Scope :=
  { scope with readOnly := name :: scope.readOnly }

/-- Runs a command that declares the variables in its arguments. -/
def declareAll (t : Turn) (command : Octets) (note : Scope → Octets → Scope)
    (args : List Octets) : Turn :=
  match declare t.shell.scope note (args.filter fun a => a.head? ≠ some '-') with
  | .ok scope => (t.withScope scope).withStatus 0
  | .error e => t.fail (command ++ ": ".toList ++ e)

/-- Makes variables local to the function that is run; none outside of functions. -/
def makeLocal (t : Turn) (args : List Octets) : Option Turn :=
  let isLeave (task : Task) : Bool := match task with
    | .leave _ => true
    | _ => false
  let before := t.shell.tasks.takeWhile (!isLeave ·)
  match t.shell.tasks.drop before.length with
  | [] => none
  | after =>
    let name (arg : Octets) : Octets := arg.takeWhile (· ≠ '=')
    let saved := args.map fun arg => (name arg, t.shell.scope.store.lookup (name arg))
    let t := { t with shell := { t.shell with tasks := before ++ Task.revert saved :: after } }
    some (t.declareAll "local".toList (fun scope _ => scope) (args.filter (·.contains '=')))

/-! ## Signals -/

/-- Sets what is done at one signal. -/
def setTrap (t : Turn) (action : Option Octets) (signal : Nat) : Turn :=
  let traps := t.shell.traps.filter (·.1 ≠ signal)
  let ignored := t.process.ignored.filter (· ≠ signal)
  let (traps, ignored) := match action with
    | none => (traps, ignored)
    | some [] => (traps, if signal = 0 then ignored else signal :: ignored)
    | some text => (traps ++ [(signal, text)], ignored)
  { t with shell := { t.shell with traps }, process := { t.process with ignored } }

/-- Sets, shows or forgets what is done at signals. -/
def setTraps (t : Turn) (args : List Octets) : Turn :=
  let args := if args.head? = some "--".toList then args.drop 1 else args
  let all (t : Turn) (action : Option Octets) (names : List Octets) : Turn :=
    names.foldl
      (fun t name => match signalNumber? name with
        | some n => t.setTrap action n
        | none =>
          ((t.say 2 ("trap: ".toList ++ name ++ ": bad trap\n".toList)).1).withStatus 1)
      (t.withStatus 0)
  match args with
  | [] =>
    t.report "trap".toList (Report.ofOutput (t.shell.traps.flatMap fun (n, text) =>
      "trap -- '".toList ++ text ++ "' ".toList ++ signalName n ++ ['\n']))
  | [name] => all t none [name]
  | action :: names =>
    if action = ['-'] then all t none names
    else if (Octets.natural? action).isSome then all t none (action :: names)
    else all t (some action) names

/-- Sends a signal to the whole group. -/
def signalGroup (t : Turn) (signal : Nat) : Turn :=
  let processes := t.host.processes.map (Process.receive · signal)
  { t with host := { t.host with processes } }.receive signal

/-- Sends a signal to a process, if it exists. -/
def signalProcess (t : Turn) (pid signal : Nat) : Option Turn :=
  if pid = t.process.pid then some (if signal = 0 then t else t.receive signal)
  else (t.host.process? pid).map fun p =>
    if signal = 0 then t else { t with host := t.host.store (p.receive signal) }

/-- How `kill` is used. -/
def killUsage : Octets :=
  "Usage: kill [-s sigspec | -signum | -sigspec] [pid | job]... or\nkill -l [exitstatus]".toList

/-- The process or group that an argument of `kill` names, or what is not a number in it. -/
def targetOfKill (arg : Octets) : Except Octets Int :=
  let (sign, digits) : Int × Octets := match arg with
    | '-' :: rest => (-1, rest)
    | _ => (1, arg)
  match Octets.natural? digits with
  | some n => .ok (sign * n)
  | none => .error digits

/-- Sends a signal to processes and groups, until one of them is not named by a number. -/
def sendAll (d : Dialect) (t : Turn) (signal : Nat) : List Octets → Turn
  | [] => t
  | target :: rest =>
    match targetOfKill target with
    | .error text => (t.complain ("kill: Illegal number: ".toList ++ text)).withStatus 2
    | .ok n =>
      let sent :=
        if n > 0 then t.signalProcess n.toNat signal
        else some (if signal = 0 then t else t.signalGroup signal)
      let failed := match d with
        | .shell => t.complain "kill: No such process\n".toList
        | .program =>
          (t.say 2 (t.shell.scope.zero ++ ": (".toList ++ target ++ "): No such process\n".toList)).1
      sendAll d (sent.getD (failed.withStatus 1)) signal rest

/-- Sends signals, or shows their names. -/
def sendSignals (d : Dialect) (t : Turn) (args : List Octets) : Turn :=
  let complain (text : Octets) (status : Nat) : Turn :=
    (t.complain ("kill: ".toList ++ text)).withStatus status
  let send (signal : Nat) (targets : List Octets) : Turn :=
    if targets.isEmpty then complain killUsage 2 else sendAll d (t.withStatus 0) signal targets
  match args with
  | [] => complain killUsage 2
  | ['-', 'l'] :: rest =>
    let numberOf (text : Octets) : Option Nat :=
      ((Octets.natural? text).map fun n => if n > 128 then n - 128 else n).filter fun n =>
        0 < n && n < 65
    match rest with
    | [] =>
      let all := (List.range 32).drop 1
      t.report "kill".toList (Report.ofOutput (all.flatMap fun n => signalName n ++ ['\n']))
    | text :: _ =>
      match numberOf text with
      | some n => t.report "kill".toList (Report.ofOutput (signalName n ++ ['\n']))
      | none => complain ("invalid signal number or exit status: ".toList ++ text) 2
  | ['-', 's'] :: name :: targets =>
    match signalNumber? name with
    | some n => send n targets
    | none => complain ("invalid signal number or name: ".toList ++ name) 2
  | ['-', '-'] :: targets => send 15 targets
  | ('-' :: c :: rest) :: targets =>
    match signalNumber? (c :: rest) with
    | some n => send n targets
    | none => complain ("Illegal option -".toList ++ [c]) 2
  | targets => send 15 targets

/-! ## Leaving -/

/-- The number that an argument gives as a status. -/
def statusOf (t : Turn) (args : List Octets) : Except Octets Nat :=
  match args with
  | [] => .ok t.shell.status
  | arg :: _ =>
    match Octets.natural? arg with
    | some n => if n < Nat.pow 2 31 then .ok n else .error arg
    | none => .error arg

/-- Ends the shell. -/
def leaveWith (t : Turn) (args : List Octets) : Turn :=
  match t.statusOf args with
  | .error arg => t.fail ("exit: Illegal number: ".toList ++ arg)
  | .ok n =>
    let t := t.withStatus n
    { t with shell := { t.shell with tasks := [.finish] } }

/-- Ends a function or a sourced script, or else the shell. -/
def returnWith (t : Turn) (args : List Octets) : Turn :=
  match t.statusOf args with
  | .error arg => t.fail ("return: Illegal number: ".toList ++ arg)
  | .ok n =>
    let t := t.withStatus n
    { t with shell := { t.shell with
        tasks := (unwind Task.isCall t.shell.tasks).getD [.finish] } }

/-- Leaves loops, or goes on with the next round of one. -/
def leaveLoops (t : Turn) (change : Nat → List Task → List Task) (args : List Octets) : Turn :=
  let n := ((args.head?.bind Octets.natural?).getD 1)
  let t := t.withStatus 0
  { t with shell := { t.shell with tasks := change n t.shell.tasks } }

/-! ## Scripts and programs -/

/-- Runs a script that is given as text. -/
def runText (t : Turn) (text : Octets) (after : List Task) : Turn :=
  (t.withStatus 0).push (.script (Script.ofText t.shell.line text) :: after)

/-- Runs the script in a file. -/
def source (t : Turn) (args : List Octets) : Turn :=
  match args with
  | [] => t.fail ".: filename argument required".toList
  | name :: _ =>
    let w : Workplace := { tree := t.host.tree, cwd := t.process.cwd }
    if !name.contains '/' then t.fail (".: ".toList ++ name ++ ": not found".toList)
    else match w.read name with
      | .ok text => t.runText text [.sourced]
      | .error .isDirectory => t.fail (".: ".toList ++ name ++ ": Is a directory".toList)
      | .error e => t.fail (".: ".toList ++ openComplaint false name e)

/-- Becomes a program. -/
def exec (t : Turn) (env : List (Octets × Octets)) (args : List Octets) : Turn :=
  match args with
  | [] => t.withStatus 0
  | name :: rest =>
    match t.programOf env name with
    | .ok location =>
      { t with process := { t.process with descriptors := publicDescriptors t.process } }.become
        (Host.execute location name rest env)
    | .error e =>
      let (text, status) := notFound name e
      t.failWith status ("exec: ".toList ++ text)

/-- The names of the commands whose failures end the shell and whose assignments last. -/
def specialNames : List String :=
  [":", ".", "break", "continue", "eval", "exec", "exit", "export", "readonly", "return", "set",
    "shift", "times", "trap", "unset"]

/-- The names of the other commands inside the shell. -/
def otherNames : List String :=
  ["[", "alias", "cd", "command", "echo", "false", "getopts", "hash", "jobs", "kill", "local",
    "printf", "pwd", "read", "test", "true", "type", "ulimit", "umask", "unalias", "wait"]

/-- Whether a name is a command inside the shell. -/
def isBuiltin (name : Octets) : Bool :=
  (specialNames ++ otherNames).contains (String.ofList name)

/-- What `command -v` or `type` says of a name; none of a name that means nothing. -/
def whatIs (t : Turn) (long : Bool) (name : Octets) : Option Octets :=
  let said (brief full : Octets) : Option Octets := some (if long then full else brief)
  if (t.shell.functions.lookup name).isSome then said name (name ++ " is a shell function".toList)
  else if isBuiltin name then
    said name (name ++ (if specialNames.contains (String.ofList name) then
      " is a special shell builtin" else " is a shell builtin").toList)
  else match t.programOf [] name with
    | .error _ => none
    | .ok location =>
      let path := if name.contains '/' then name else Utility.pathText location
      said path (name ++ " is ".toList ++ path)

/-- Says what names are. -/
def describeNames (t : Turn) (long : Bool) (names : List Octets) : Turn :=
  names.foldl
    (fun t name => match t.whatIs long name with
      | some text => (t.say 1 (text ++ ['\n'])).1
      | none =>
        (if long then (t.say 1 (name ++ ": not found\n".toList)).1 else t).withStatus 127)
    (t.withStatus 0)

/-! ## By name -/

/-- Runs a command inside the shell. -/
def builtin (t : Turn) (env : List (Octets × Octets)) (name : Octets) (args : List Octets) : Turn :=
  let scope := t.shell.scope
  let files : Lookup := t.host.entryAt t.process.cwd
  match String.ofList name with
  | ":" => t.withStatus 0
  | "true" => t.withStatus 0
  | "false" => t.withStatus 1
  | "echo" => t.report name (echo .shell args)
  | "printf" =>
    match args with
    | ('-' :: c :: _) :: _ =>
      if args.head? = some "--".toList then t.report name (printf .shell args)
      else (t.complain ("printf: Illegal option -".toList ++ [c])).withStatus 2
    | _ => t.report name (printf .shell args)
  | "test" => t.report name (condition .shell files false args)
  | "[" => t.report name (condition .shell files true args)
  | "cd" => t.changeDirectory args
  | "pwd" => t.report name (Report.ofOutput (Utility.pathText t.process.cwd ++ ['\n']))
  | "exit" => t.leaveWith args
  | "return" => t.returnWith args
  | "break" => t.leaveLoops breakLoops args
  | "continue" => t.leaveLoops continueLoop args
  | "shift" =>
    let n := (args.head?.bind Octets.natural?).getD 1
    if scope.arguments.length < n then t.fail "shift: can't shift that many".toList
    else (t.withScope { scope with arguments := scope.arguments.drop n }).withStatus 0
  | "set" => (t.withScope (setOptions scope args)).withStatus 0
  | "unset" =>
    let names := args.filter fun a => a.head? ≠ some '-'
    match names.find? scope.readOnly.contains with
    | some held => t.fail ("unset: ".toList ++ Scope.readOnlyComplaint held)
    | none =>
      let t := t.withScope (names.foldl Scope.unset scope)
      let functions :=
        if args.contains "-f".toList then t.shell.functions.filter fun (n, _) => !names.contains n
        else t.shell.functions
      { t with shell := { t.shell with functions } }.withStatus 0
  | "export" => t.declareAll name Scope.export args
  | "readonly" => t.declareAll name markReadOnly args
  | "local" =>
    match t.makeLocal args with
    | some t => t
    | none => t.fail "local: not in a function".toList
  | "eval" => t.runText (Octets.join [' '] args) []
  | "." => t.source args
  | "exec" => t.exec env args
  | "trap" => t.setTraps args
  | "kill" => t.sendSignals .shell args
  | "wait" =>
    let pids := args.filterMap Octets.natural?
    let children := (t.host.processes.filter fun p => p.parent = t.process.pid).map Process.pid
    if args.isEmpty then (t.withStatus 0).push [.waitFor children false]
    else if pids.all children.contains then (t.withStatus 0).push [.waitFor pids true]
    else t.withStatus 127
  | "read" =>
    let names := args.filter fun a => a.head? ≠ some '-'
    if names.isEmpty then (t.complain "read: arg count".toList).withStatus 2
    else t.push [.readLine names (args.contains "-r".toList)]
  | "type" => t.describeNames true args
  | "command" => t.describeNames false (args.filter fun a => a.head? ≠ some '-')
  | "umask" => if args.isEmpty then t.report name (Report.ofOutput "0022\n".toList) else t.withStatus 0
  | "getopts" => t.withStatus 1
  | _ => t.withStatus 0

end Turn

end TestHarness
