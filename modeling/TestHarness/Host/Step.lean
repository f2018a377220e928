import TestHarness.Host.Builtin

/-!
# Steps of processes

One step of a shell takes one task off its list.  One step of any other process is its whole work,
or as much of it as its input allows.  A process that can do nothing now takes no step.

## Contents
* commands: `Turn.simple` with its parts, `Turn.run`
* tasks: `Turn.perform`, `Turn.step`
* `Host.stepProgram` and `Host.stepProcess`
-/

namespace TestHarness

open Shell

namespace Turn

/-! ## Simple commands -/

/-- The values of assignments, from left to right, and the variables after them. -/
def evaluate (scope : Scope) :
    List (Octets × Word) → Except Octets (List (Octets × Octets) × Scope)
  | [] => .ok ([], scope)
  | (name, word) :: rest =>
    match expandText scope word with
    | .error e => .error e
    | .ok (value, scope) =>
      match scope.setChecked name value with
      | .error e => .error e
      | .ok scope => (evaluate scope rest).map fun (more, scope) => ((name, value) :: more, scope)

/-- Assignments without a command.  The status is that of a substitution, if there was one. -/
def assign (t : Turn) (substituted : Option Nat) (assignments : List (Octets × Word))
    (redirections : List Redirection) : Turn :=
  match t.redirect true redirections with
  | .error (e, t) => (t.complain e).withStatus 2
  | .ok (t, saved) =>
    let t := t.restore saved
    match evaluate t.shell.scope assignments with
    | .error e => t.fail e
    | .ok (_, scope) => (t.withScope scope).withStatus (substituted.getD 0)

/-- Calls a function. -/
def callFunction (t : Turn) (body : Cmd) (args : List Octets) (before : Scope)
    (values : List (Octets × Octets)) (redirections : List Redirection) : Turn :=
  match t.redirect true redirections with
  | .error (e, t) => (t.complain e).withStatus 2
  | .ok (t, saved) =>
    let old := values.map fun (name, _) => (name, before.store.lookup name)
    let scope := values.foldl (fun s (name, value) => s.set name value) t.shell.scope
    let t := t.push [.run body, .leave scope.arguments, .restore saved, .revert old]
    t.withScope { scope with arguments := args }

/-- Runs a command inside the shell. -/
def callBuiltin (t : Turn) (name : Octets) (args : List Octets) (before : Scope)
    (values : List (Octets × Octets)) (redirections : List Redirection) : Turn :=
  let special := specialNames.contains (String.ofList name)
  let keep := !(name = "exec".toList && args.isEmpty)
  match t.redirect keep redirections with
  | .error (e, t) => if special then t.fail e else (t.complain e).withStatus 2
  | .ok (t, saved) =>
    let old := if special then [] else values.map fun (name, _) => (name, before.store.lookup name)
    let scope := values.foldl (fun s (name, value) => s.set name value) t.shell.scope
    let env := scope.environment ++ values.filter fun (name, _) => !scope.exported.contains name
    ((t.withScope scope).push [.restore saved, .revert old]).builtin env name args

/-- Starts a program and waits for it. -/
def callProgram (t : Turn) (name : Octets) (args : List Octets) (values : List (Octets × Octets))
    (redirections : List Redirection) : Turn :=
  match t.redirect true redirections with
  | .error (e, t) => (t.complain e).withStatus 2
  | .ok (t, saved) =>
    let kept := t.shell.scope.environment.filter fun (key, _) => (values.lookup key).isNone
    let env := kept ++ values
    match t.programOf env name with
    | .error e =>
      let (text, status) := notFound name e
      ((t.complain text).restore saved).withStatus status
    | .ok location =>
      let (t, pid) :=
        t.addChild (publicDescriptors t.process) (Host.execute location name args env)
      (t.restore saved).push [.await [pid] pid]

/-- Runs a simple command. -/
def simple (t : Turn) (assignments : List (Octets × Word)) (words : List Word)
    (redirections : List Redirection) : Turn :=
  let substituted := t.shell.substituted
  let t := { t with shell := { t.shell with substituted := none } }
  match expandWords t.shell.scope words with
  | .error e => t.fail e
  | .ok (fields, scope) =>
    let t := t.withScope scope
    match fields.flatMap t.pathnames with
    | [] => t.assign substituted assignments redirections
    | name :: args =>
      match evaluate t.shell.scope assignments with
      | .error e => t.fail e
      | .ok (values, _) =>
        let plain := name = "command".toList && !args.isEmpty &&
          (args.headD []).head? ≠ some '-'
        let (name, args) := if plain then (args.headD [], args.drop 1) else (name, args)
        match if plain then none else t.shell.functions.lookup name with
        | some body => t.callFunction body args t.shell.scope values redirections
        | none =>
          if isBuiltin name then t.callBuiltin name args t.shell.scope values redirections
          else t.callProgram name args values redirections

/-! ## Compound commands -/

/-- The first arm with a pattern that matches a text. -/
def findArm (scope : Scope) (subject : Octets) : Cmd → Except Octets (Option Cmd)
  | .arm patterns body rest =>
    let matched := patterns.foldlM
      (fun (found : Bool) w =>
        if found then .ok true
        else (expandWord scope w).map fun (parts, _) => (patternOf parts).accepts subject)
      false
    match matched with
    | .error e => .error e
    | .ok true => .ok (some body)
    | .ok false => findArm scope subject rest
  | _ => .ok none

/-- Starts the commands of a pipeline, of which the next reads from `input`. -/
def startPipeline (t : Turn) (input : Option Nat) (started : List Nat) :
    List Cmd → Turn × List Nat
  | [] => (t, started)
  | c :: rest =>
    let descriptors := publicDescriptors t.process
    let descriptors := match input with
      | some handle => (0, handle) :: descriptors.filter (·.1 ≠ 0)
      | none => descriptors
    if rest.isEmpty then
      let (t, pid) := t.fork descriptors c
      (t, started ++ [pid])
    else
      let (host, pipe) := t.host.number
      let (host, readEnd) := host.openHandle { target := .readEnd pipe, writable := false }
      let (host, writeEnd) := host.openHandle { target := .writeEnd pipe, readable := false }
      let t := { t with host }
      let (t, pid) := t.fork ((1, writeEnd) :: descriptors.filter (·.1 ≠ 1)) c
      startPipeline t (some readEnd) (started ++ [pid]) rest

/-- Starts the script of a command substitution, whose output goes through a pipe. -/
def substitute (t : Turn) (source : Octets) (c : Cmd) : Turn :=
  let (host, pipe) := t.host.number
  let (host, readEnd) := host.openHandle { target := .readEnd pipe, writable := false }
  let (host, writeEnd) := host.openHandle { target := .writeEnd pipe, readable := false }
  let t := { t with host }
  let shell : Shell.State :=
    { tasks := [.script (Script.ofText t.shell.line source)], scope := t.shell.scope
      functions := t.shell.functions, line := t.shell.line }
  let descriptors := (publicDescriptors t.process).filter (·.1 ≠ 1)
  let (t, pid) := t.addChild ((1, writeEnd) :: descriptors) (.shell shell)
  let free := freeDescriptor t.process
  ({ t with process := t.process.setDescriptor free readEnd }).push [.gather pid free [] c]

/-- Runs a command: a simple one at once, and any other one by its parts. -/
def run (t : Turn) (c : Cmd) : Turn :=
  let t := match c.line? with
    | some line => { t with shell := { t.shell with line } }
    | none => t
  match c.substitution? with
  | some source => t.substitute source c
  | none =>
    match c with
    | .skip => t.withStatus 0
    | .simple _ assignments words redirections =>
      (t.push [.check]).simple assignments words redirections
    | .redirected _ body redirections =>
      match t.redirect true redirections with
      | .error (e, t) => (t.complain e).withStatus 2
      | .ok (t, saved) => t.push [.run body, .restore saved]
    | .sequence a b => t.push [.run a, .run b]
    | .both a b => t.push [.run a, .ifOk b]
    | .either a b => t.push [.run a, .ifFailed b]
    | .negated body => t.push [.run body, .negate]
    | .pipeline .. =>
      let (t, pids) := t.startPipeline none [] c.stages
      t.push [.await pids (pids.getLastD 0), .check]
    | .background body =>
      let (t, pid) := t.fork (publicDescriptors t.process) body
      (t.withScope { t.shell.scope with background := some pid }).withStatus 0
    | .subshell body =>
      let (t, pid) := t.fork (publicDescriptors t.process) body
      t.push [.await [pid] pid, .check]
    | .branch condition yes no => t.push [.run condition, .choose yes no]
    | .loop whileFails condition body => t.push [.run condition, .decide whileFails condition body 0]
    | .each _ name words body =>
      match words with
      | none => (t.withStatus 0).push [.each name t.shell.scope.arguments body]
      | some words =>
        match expandWords t.shell.scope words with
        | .error e => t.fail e
        | .ok (fields, scope) =>
          let t := (t.withScope scope).withStatus 0
          t.push [.each name (fields.flatMap t.pathnames) body]
    | .choice _ subject arms =>
      match expandText t.shell.scope subject with
      | .error e => t.fail e
      | .ok (text, scope) =>
        match findArm scope text arms with
        | .error e => t.fail e
        | .ok none => (t.withScope scope).withStatus 0
        | .ok (some body) => (t.withScope scope).push [.run body]
    | .arm .. => t
    | .define name body =>
      let functions := (name, body) :: t.shell.functions.filter (·.1 ≠ name)
      { t with shell := { t.shell with functions } }.withStatus 0

/-! ## Waiting and reading -/

/-- The ends of processes, if all of them have ended. -/
def endsOf (t : Turn) (pids : List Nat) : Option (List (Nat × ExitStatus)) :=
  pids.mapM fun pid =>
    match t.host.process? pid with
    | none => some (pid, .exited 127)
    | some p =>
      match p.activity with
      | .ended status => some (pid, status)
      | _ => none

/-- The status that the end of a process gives. -/
def statusAfter : ExitStatus → Nat
  | .exited code => code
  | .signalled signal => 128 + signal

/-- Forgets processes that have ended. -/
def forget (t : Turn) (pids : List Nat) : Turn :=
  { t with host := { t.host with
      processes := t.host.processes.filter fun p => !pids.contains p.pid } }

/-- Says that a signal has ended a process. -/
def reportEnd (t : Turn) : ExitStatus → Turn
  | .exited _ => t
  | .signalled signal =>
    if (signalText signal).isEmpty then t else (t.say 2 (signalText signal ++ ['\n'])).1

/-- Takes note of how processes ended, of which `last` gives the status. -/
def collect (t : Turn) (pids : List Nat) (last : Nat) (named : Bool) : Option Turn :=
  (t.endsOf pids).map fun ends =>
    let status := statusAfter ((ends.lookup last).getD (.exited 0))
    let t := if named then ends.foldl (fun t pair => t.reportEnd pair.2) t else t
    (t.forget pids).withStatus (if named then status else 0)

/-- A line as `read` takes it: its characters with whether they are quoted, without the newline. -/
def readable (raw : Bool) : Octets → Field
  | [] => []
  | ['\n'] => []
  | '\\' :: c :: rest =>
    if raw then ('\\', false) :: readable raw (c :: rest) else (c, true) :: readable raw rest
  | c :: rest => (c, false) :: readable raw rest

/-- The values that a line gives to variables: one field each, and the rest to the last one. -/
def valuesFor (separators : Octets) : List Octets → Field → List (Octets × Octets)
  | [], _ => []
  | [name], line =>
    let separates (x : Char × Bool) : Bool := !x.2 && separators.contains x.1 && x.1.isWhitespace
    let line := ((line.dropWhile separates).reverse.dropWhile separates).reverse
    [(name, Field.text line)]
  | name :: rest, line =>
    let blank (x : Char × Bool) : Bool := !x.2 && separators.contains x.1 && x.1.isWhitespace
    let separates (x : Char × Bool) : Bool := !x.2 && separators.contains x.1
    let line := line.dropWhile blank
    let value := line.takeWhile (!separates ·)
    let after := (line.drop value.length).dropWhile blank
    let after := match after with
      | x :: more => if separates x then more else after
      | [] => []
    (name, Field.text value) :: valuesFor separators rest after

/-- Reads a line into variables, if there is one. -/
def readLine (t : Turn) (names : List Octets) (raw : Bool) : Option Turn :=
  match t.host.read t.process 0 Host.takeLine with
  | (_, .blocked) => none
  | (host, .closed) => some ({ t with host }.withStatus 1)
  | (host, .directory) => some ({ t with host }.withStatus 1)
  | (host, .text line) =>
    let values := valuesFor t.shell.scope.separators names (readable raw line)
    let scope := values.foldl (fun s (name, value) => s.set name value) t.shell.scope
    some (({ t with host }.withScope scope).withStatus
      (if line.getLast? = some '\n' then 0 else 1))

/-- Goes on reading the output of a command substitution, if there is any or it has ended. -/
def gather (t : Turn) (pid descriptor : Nat) (text : Octets) (c : Cmd) : Option Turn :=
  match t.host.read t.process descriptor Host.takeAny with
  | (_, .blocked) => none
  | (host, .text more) =>
    if !more.isEmpty then some ({ t with host }.push [.gather pid descriptor (text ++ more) c])
    else match ({ t with host }).endsOf [pid] with
      | none => none
      | some ends =>
        let status := (ends.lookup pid).getD (.exited 0)
        let text := (text.reverse.dropWhile (· = '\n')).reverse
        let t := { t with host, process := t.process.closeDescriptor descriptor }
        let t := (t.forget [pid]).reportEnd status
        let t := { t with shell := { t.shell with substituted := some (statusAfter status) } }
        some (t.run (c.fill text))
  | (host, _) => some ({ t with host }.run (c.fill text))

/-! ## Tasks -/

/-- Runs what is to be run at the end, and then ends. -/
def finish (t : Turn) : Turn :=
  match t.shell.traps.lookup 0 with
  | some action =>
    let traps := t.shell.traps.filter (·.1 ≠ 0)
    let t := { t with shell := { t.shell with traps, tasks := [] } }
    t.push [.script (Script.ofText 1 action), .setStatus t.shell.status, .stop]
  | none => { t with shell := { t.shell with tasks := [.stop] } }

/-- Performs one task, which has been taken off the list; none if it has to wait. -/
def perform (t : Turn) : Task → Option Turn
  | .run c => some (t.run c)
  | .ifOk c => some (if t.shell.status = 0 then t.push [.run c] else t)
  | .ifFailed c => some (if t.shell.status = 0 then t else t.push [.run c])
  | .negate => some (t.withStatus (if t.shell.status = 0 then 1 else 0))
  | .choose yes no => some (t.push [.run (if t.shell.status = 0 then yes else no)])
  | .decide whileFails condition body last =>
    some (if decide (t.shell.status = 0) != whileFails then
      t.push [.run body, .again whileFails condition body]
    else t.withStatus last)
  | .again whileFails condition body =>
    some (t.push [.run condition, .decide whileFails condition body t.shell.status])
  | .each name values body =>
    match values with
    | [] => some t
    | value :: rest =>
      some ((t.withScope (t.shell.scope.set name value)).push [.run body, .each name rest body])
  | .restore saved => some (t.restore saved)
  | .revert saved =>
    some (t.withScope (saved.foldl
      (fun s (name, value) => match value with
        | some value => s.set name value
        | none => { s with store := s.store.filter (·.1 ≠ name) })
      t.shell.scope))
  | .leave arguments => some (t.withScope { t.shell.scope with arguments })
  | .setStatus n => some (t.withStatus n)
  | .check =>
    let ends := t.shell.scope.stopsOnFailure && t.shell.status ≠ 0 &&
      !t.shell.tasks.any Task.looksAtStatus
    some (if ends then { t with shell := { t.shell with tasks := [.finish] } } else t)
  | .await pids last => t.collect pids last true
  | .waitFor pids named =>
    match t.shell.pending with
    | signal :: _ => some (t.withStatus (128 + signal))
    | [] => t.collect pids (pids.getLastD 0) named
  | .gather pid descriptor text c => t.gather pid descriptor text c
  | .readLine names raw => t.readLine names raw
  | .script s =>
    match s.lines with
    | c :: lines => some (t.push [.run c, .script { s with lines }])
    | [] =>
      match s.error with
      | none => some t
      | some (line, complaint) =>
        some ({ t with shell := { t.shell with line } }.fail ("Syntax error: ".toList ++ complaint))
  | .sourced => some t
  | .finish => some t.finish
  | .stop => some (t.become (.ended (.exited (t.shell.status % 256))))

/-- Whether a shell has to finish a task before it looks at signals. -/
def isBusy : Task → Bool
  | .await .. => true
  | .waitFor .. => true
  | .gather .. => true
  | .stop => true
  | _ => false

/-- Takes the next task off the list; a shell without tasks finishes. -/
def next (t : Turn) : Option Turn :=
  match t.shell.tasks with
  | [] => some t.finish
  | task :: tasks => { t with shell := { t.shell with tasks } }.perform task

/-- One step of a shell: the action of a signal that has come, or a task. -/
def step (t : Turn) : Option Turn :=
  match t.shell.pending with
  | [] => t.next
  | signal :: pending =>
    if (t.shell.tasks.head?.map isBusy).getD false then t.next
    else
      let action := (t.shell.traps.lookup signal).getD []
      let t := { t with shell := { t.shell with pending } }
      some (t.push [.script (Script.ofText 1 action), .setStatus t.shell.status])

end Turn

namespace Host

/-! ## Other processes -/

/-- Writes a program's report, and ends the program. -/
def conclude (h : Host) (p : Process) (called : Octets) (r : Report) : Host :=
  let (h, broken, failed) := r.written.foldl
    (fun (h, broken, failed) part => match part with
      | .inl text =>
        match h.write p 1 text with
        | (h, .ok) => (h, broken, failed)
        | (h, .closed) => (h, broken, true)
        | (h, .broken) => (h, true, failed)
      | .inr text => ((h.write p 2 (called ++ ": ".toList ++ text ++ ['\n'])).1, broken, failed))
    (h, false, false)
  let h := if failed then
      (h.write p 2 (called ++ ": write error: Bad file descriptor\n".toList)).1
    else h
  let status : ExitStatus :=
    if broken && !p.ignored.contains 13 then .signalled 13
    else .exited (if failed || broken then max 1 r.status else r.status)
  (h.store (p.finish status)).release

/-- The shell that some arguments start, or why there is none. -/
def shellOf (w : Workplace) (called : Octets) : Scope → List Octets → Except Octets Shell.State
  | scope, ('-' :: letters) :: rest =>
    let scope := Turn.setOptions scope ['-' :: letters.filter (· ≠ 'c')]
    if letters.contains 'c' then
      match rest with
      | [] => .error "0: -c requires an argument".toList
      | text :: names =>
        .ok { tasks := [.script (Script.ofText 1 text)]
              scope := { scope with zero := names.headD called, arguments := names.drop 1 } }
    else shellOf w called scope rest
  | scope, name :: rest =>
    match w.read name with
    | .ok text =>
      .ok { tasks := [.script (Script.ofText 1 text)]
            scope := { scope with zero := name, arguments := rest } }
    | .error e => .error ("0: ".toList ++ Turn.openComplaint false name e)
  | scope, [] => .ok { tasks := [], scope }

/-- Starts the program that `env` is to run: its settings come before it. -/
def envArguments : List (Octets × Octets) → List Octets → List (Octets × Octets) × List Octets
  | env, ['-', 'u'] :: name :: rest => envArguments (env.filter (·.1 ≠ name)) rest
  | env, arg :: rest =>
    if arg = ['-', 'i'] ∨ arg = ['-'] then envArguments [] rest
    else match Octets.cut? '=' arg with
      | some (name, value) => envArguments (env.filter (·.1 ≠ name) ++ [(name, value)]) rest
      | none => (env, arg :: rest)
  | env, [] => (env, [])

/-- The step of a program that has just been started. -/
def begin (h : Host) (p : Process) (name called : Octets) (args : List Octets)
    (env : List (Octets × Octets)) : Host :=
  let w : Workplace := { tree := h.tree, cwd := p.cwd, env }
  let go (activity : Activity) : Host := h.store { p with activity }
  match String.ofList name with
  | "sh" | "dash" =>
    let named := env.filter fun (key, _) => isName key
    let scope : Scope :=
      { store := named, exported := named.map (·.1), zero := called, pid := p.pid }
    match shellOf w called scope args with
    | .ok shell => go (.shell shell)
    | .error e => h.conclude p called { written := [.inr e], status := 2 }
  | "sleep" =>
    if args.isEmpty then
      h.conclude p called { written := [.inr ("missing operand".toList ++ Utility.hint called)], status := 1 }
    else match args.mapM Utility.sleepTime with
      | some times => go (.sleeping (times.foldl Nat.add h.clock))
      | none =>
        let bad := (args.find? fun a => (Utility.sleepTime a).isNone).getD []
        let text := "invalid time interval ".toList ++ Utility.quote bad ++ Utility.hint called
        h.conclude p called { written := [.inr text], status := 1 }
  | "env" =>
    match envArguments env args with
    | (env, []) =>
      h.conclude p called (Utility.run { w with env } name called []).2
    | (env, program :: args) =>
      match h.findProgram p.cwd env program with
      | .ok location => go (execute location program args env)
      | .error e =>
        let text := Utility.quote program ++ ": ".toList ++ e.text.toList
        h.conclude p called { written := [.inr text], status := if e = .denied then 126 else 127 }
  | "yes" =>
    let line := (if args.isEmpty then ['y'] else Octets.join [' '] args) ++ ['\n']
    go (.repeating (List.replicate 64 line).flatten)
  | "kill" =>
    let t : Turn := { host := h, process := p, shell := { scope := { zero := called } } }
    let t := t.sendSignals .program args
    match t.replaced with
    | some (.ended status) => (t.host.store (p.finish status)).release
    | _ => (t.host.store (p.finish (.exited (min 1 t.shell.status)))).release
  | _ =>
    if Utility.readsInput name args then go (.reading name called args [])
    else
      let (tree, report) := Utility.run w name called args
      { h with tree }.conclude p called report

/-- One step of a process; none if it can do nothing now. -/
def stepProcess (h : Host) (p : Process) : Option Host :=
  if p.stopped then none
  else match p.activity with
  | .ended _ => none
  | .sleeping wake => if wake ≤ h.clock then some (h.store (p.finish (.exited 0))).release else none
  | .program name called args env => some (h.begin p name called args env)
  | .reading name called args input =>
    match h.read p 0 takeAny with
    | (_, .blocked) => none
    | (h, .closed) =>
      some (h.conclude p called
        { written := [.inr "-: Bad file descriptor".toList], status := 1 })
    | (h, .directory) =>
      some (h.conclude p called { written := [.inr "-: Is a directory".toList], status := 1 })
    | (h, .text text) =>
      let input := input ++ text
      if text.isEmpty || Utility.hasEnough name args input then
        some (h.conclude p called (Utility.filter { tree := h.tree, cwd := p.cwd } name args input))
      else some (h.store { p with activity := .reading name called args input })
  | .repeating text =>
    match h.write p 1 text with
    | (h, .ok) => some h
    | (h, .closed) => some (h.store (p.finish (.exited 1))).release
    | (h, .broken) => some (h.store (p.finish (.signalled 13))).release
  | .shell shell => (Turn.step { host := h, process := p, shell }).map Turn.commit

end Host

end TestHarness
