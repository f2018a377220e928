import TestHarness.Host.Run
import TestHarness.Runner.Replay

/-!
# Sessions

A session drives one runner through a list of steps, one after the other, on a host of its own: the
calls of the runner, changes of the job, the timer and the files, and the passing of time.  What can
be seen of the runner is noted after every step.

## Contents
* `Session`, its `Step`s, `Result`s and `View`s
* `Session.poll` and `Session.waitChild`, the wait for a child process
* `Session.take` and `Session.views`
-/

namespace TestHarness

/-- The runner of a session. -/
inductive AnyRunner where
  | replay (r : ReplayRunner)
  | child (r : LocalRunner)
deriving Inhabited

namespace AnyRunner

/-- The runner's name, `replay` or `local`. -/
def name : AnyRunner → String
  | replay _ => ReplayRunner.name
  | child _ => LocalRunner.name

/-- The state that every runner has, its `Core`. -/
def core : AnyRunner → Core
  | replay r => r.core
  | child r => r.core

/-- The runner with another `core`. -/
def withCore (core : Core) : AnyRunner → AnyRunner
  | replay r => replay { r with core }
  | child r => child { r with core }

end AnyRunner

/-- **A runner with its timer, on a host**, seen from a working directory `cwd`. -/
structure Session where
  runner : AnyRunner
  timer : Timer := {}
  host : Host := {}
  cwd : Location := []
deriving Inhabited

namespace Session

/-! ## Steps -/

/-- One step of a session.  Names are given as texts, which may name nothing. -/
inductive Step where
  | markSpawned
  | ensureSpawned (operation : String)
  | append (text : String)
  | appendBytes (bytes : Bytes)
  | setExitCode (code : Int)
  | finalize
  | complete (code : Int)
  | readOutput (stream : Stream)
  | setStatus (kind message : String)
  | addCaveat (text : String)
  | debugJob
  | spawn
  | kill
  | sendSignal (signal : String)
  /-- Waits; a kill comes from elsewhere after some time, if one is set. -/
  | wait (killAfter : Option Duration)
  | startTimer
  | stopTimer
  | put (file : Path) (data : Bytes)
  | remove (file : Path)
  | sleep (time : Duration)
  | waitFile (file : Path)

/-- What a step gives. -/
inductive Result where
  | done
  | text (text : String)
  | failed (e : RunnerError)
  /-- A name that names nothing. -/
  | unknownName
  /-- A wait that does not end. -/
  | endless
deriving Repr

/-- The result of a call: `done`, or `failed` with its error. -/
def Result.ofExcept : Except RunnerError Unit → Result
  | .ok () => done
  | .error e => failed e

/-- What can be seen of a runner of child processes only. -/
structure ChildView where
  timedOut : Bool
  wasKilled : Bool
  hasChild : Bool
deriving Repr

/-- What can be seen after a step. -/
structure View where
  result : Result
  phase : Phase
  exitCode : Option Int
  output : String
  status : Status
  caveats : List String
  isError : Bool
  timerRunning : Bool
  child : Option ChildView
deriving Repr

/-- The `View` of a session after a step with that result. -/
def view (s : Session) (result : Result) : View :=
  let core := s.runner.core
  { result
    phase := core.phase
    exitCode := core.exitCode
    output := core.output
    status := core.job.status
    caveats := core.job.caveats
    isError := core.job.isError
    timerRunning := s.timer.isRunning
    child := match s.runner with
      | .replay _ => none
      | .child r =>
        some { timedOut := r.timedOut, wasKilled := r.killed, hasChild := r.child.isSome } }

/-! ## The host -/

/-- The files that the runner sees now, those of the host's `tree`. -/
def files (s : Session) : FileView := s.host.tree.view s.cwd

/-- Lets a span of time pass. -/
def elapse (s : Session) (time : Duration) : Session := { s with host := s.host.elapse time }

/-- Delivers a signal to the child, if there is one. -/
def deliver (s : Session) (signal : Option Signal) : Session :=
  match signal with
  | some signal => { s with host := s.host.signalGroup signal.number }
  | none => s

/-- Starts a command on the host, with a capture for its output: what `LocalRunner.spawn` is told of
    it. -/
def startCommand (s : Session) (c : Command) : Host × LocalRunner.Start :=
  match s.host.captureFault with
  | some reason => (s.host, .noCapture reason)
  | none =>
    match s.host.start s.cwd c with
    | .ok (host, pid) => (host, .started pid)
    | .error reason => (s.host, .refused reason)

/-! ## Waiting for a child -/

/-- What is seen of a child, as `LocalRunner.look` is told of it. -/
def sightOf (h : Host) (child : Option Nat) : LocalRunner.Sight :=
  match child.bind h.endOf with
  | some status => .ended status
  | none => .running

/-- One `look` at the child, and the delivery of the signal that it leads to. -/
def poll (s : Session) (w : LocalRunner.Wait) :
    Session × LocalRunner.Wait × LocalRunner.Verdict :=
  let now := s.host.clock
  let look : LocalRunner.Look :=
    { sight := sightOf s.host w.runner.child
      expired := s.timer.isExpired now
      checked := now
      sent := now }
  let (w, signal, verdict) := LocalRunner.look w look
  (s.deliver signal, w, verdict)

/-- Kills the child of a wait that is under way, with `LocalRunner.kill`. -/
def killDuring (s : Session) (w : LocalRunner.Wait) : Session × LocalRunner.Wait :=
  let (runner, signal) := w.runner.kill
  (s.deliver signal, { w with runner })

/-- The pause of a `pollInterval` between two looks, in which a kill may come; also the kill that is
    still to come. -/
def pause (s : Session) (w : LocalRunner.Wait) (killAt : Option Duration) :
    Session × LocalRunner.Wait × Option Duration :=
  let stop := s.host.clock + max Host.tick w.runner.core.options.runner.pollInterval
  match killAt with
  | some time =>
    if time ≤ stop then
      let (s, w) := (s.elapse (time - s.host.clock)).killDuring w
      (s.elapse (stop - s.host.clock), w, none)
    else (s.elapse (stop - s.host.clock), w, killAt)
  | none => (s.elapse (stop - s.host.clock), w, none)

/-- Looks at the child with `poll` until it has ended or cannot be waited for. The number bounds the
    looks. -/
def watchChild : Nat → Session → LocalRunner.Wait → Option Duration →
    Session × LocalRunner.Wait × Option Duration × LocalRunner.Verdict
  | 0, s, w, killAt => (s, w, killAt, .running)
  | n + 1, s, w, killAt =>
    match s.poll w with
    | (s, w, .running) =>
      let (s, w, killAt) := s.pause w killAt
      watchChild n s w killAt
    | (s, w, verdict) => (s, w, killAt, verdict)

/-- More looks than any wait takes that ends. -/
def patience : Nat := 1000000000

/-- Kills the child once the clock shows `killAt`, if it is set. -/
def killLater (s : Session) (r : LocalRunner) (killAt : Option Duration) : Session × LocalRunner :=
  match killAt with
  | none => (s, r)
  | some time =>
    let s := s.elapse (time - s.host.clock)
    let (r, signal) := r.kill
    (s.deliver signal, r)

/-- Waits for a child with `watchChild`, and for the kill that comes from elsewhere. -/
def waitChild (s : Session) (r : LocalRunner) (killAt : Option Duration) : Session × Result :=
  let finish (s : Session) (r : LocalRunner) (killAt : Option Duration) (result : Result) :
      Session × Result :=
    let (s, r) := s.killLater r killAt
    ({ s with runner := .child r }, result)
  match r.core.ensureSpawned "wait" with
  | .error e => finish s r killAt (.failed e)
  | .ok () =>
    match watchChild patience s { runner := r } killAt with
    | (s, w, killAt, .running) => finish s w.runner killAt .endless
    | (s, w, killAt, .failed e) => finish s w.runner killAt (.failed e)
    | (s, w, killAt, .ended status) =>
      let ending : LocalRunner.Ending :=
        { captured := { data := s.host.capture }, files := s.files, now := s.host.clock }
      let (r, timer, result) := w.runner.conclude s.timer status ending
      finish { s with timer } r killAt (.ofExcept result)

/-! ## Taking steps -/

/-- Makes a call of the state that every runner has, with `Core.perform`. -/
def call (s : Session) (operation : Operation) : Session × Result :=
  let (core, result) := s.runner.core.perform operation
  ({ s with runner := s.runner.withCore core }, .ofExcept result)

/-- Changes the job. -/
def changeJob (s : Session) (change : Job → Job) : Session :=
  let core := s.runner.core
  { s with runner := s.runner.withCore { core with job := change core.job } }

/-- Spawns: a replay at once, a child of the host by `startCommand`. -/
def spawn (s : Session) : Session × Result :=
  match s.runner with
  | .replay r =>
    let (r, timer, result) := r.spawn s.timer s.host.clock
    ({ s with runner := .replay r, timer }, .ofExcept result)
  | .child r =>
    let (host, start) :=
      if r.core.phase = .created then s.startCommand r.command else (s.host, .refused "")
    let (r, timer, result) := r.spawn s.timer start s.host.clock
    ({ s with runner := .child r, timer, host }, .ofExcept result)

/-- Waits: a replay at once, a child of the host by `waitChild`. -/
def wait (s : Session) (killAfter : Option Duration) : Session × Result :=
  let killAt := killAfter.map (s.host.clock + ·)
  match s.runner with
  | .replay r =>
    let (r, timer, result) := r.wait s.timer s.files s.host.clock
    let s := s.elapse (killAfter.getD 0)
    ({ s with runner := .replay r, timer }, .ofExcept result)
  | .child r => s.waitChild r killAt

/-- Sends the signal of that name. -/
def sendSignal (s : Session) (name : String) : Session × Result :=
  match Signal.ofName? name with
  | none => (s, .unknownName)
  | some signal =>
    match s.runner with
    | .replay _ => (s, .ofExcept (ReplayRunner.sendSignal signal))
    | .child r =>
      match r.sendSignal signal (.ok ()) with
      | .ok () => (s.deliver (some signal), .done)
      | .error e => (s, .failed e)

/-- Kills. -/
def kill (s : Session) : Session :=
  match s.runner with
  | .replay _ => s
  | .child r =>
    let (r, signal) := r.kill
    { s.deliver signal with runner := .child r }

/-- Lets time pass until a file exists.  The number bounds the looks for it. -/
def waitFile (file : Path) : Nat → Session → Session
  | 0, s => s
  | n + 1, s =>
    if s.host.tree.pathExists s.cwd file then s else waitFile file n (s.elapse (Duration.millis 1))

/-- The session and the result after one `Step`. -/
def take (s : Session) : Step → Session × Result
  | .markSpawned => s.call .markSpawned
  | .ensureSpawned operation => s.call (.ensureSpawned operation)
  | .append text => s.call (.append text)
  | .appendBytes bytes => s.call (.appendBytes bytes)
  | .setExitCode code => s.call (.setExitCode code)
  | .finalize => s.call (.finalize s.files)
  | .complete code => s.call (.complete s.files code)
  | .readOutput stream =>
    let (core, text) := s.runner.core.readStream stream
    ({ s with runner := s.runner.withCore core }, .text text)
  | .setStatus kind message =>
    match StatusKind.ofName? kind with
    | some kind => (s.changeJob (·.setStatus { kind, message }), .done)
    | none => (s, .unknownName)
  | .addCaveat text => (s.changeJob (·.addCaveat text), .done)
  | .debugJob => (s, .text s.runner.core.job.debugText)
  | .spawn => s.spawn
  | .kill => (s.kill, .done)
  | .sendSignal signal => s.sendSignal signal
  | .wait killAfter => s.wait killAfter
  | .startTimer => ({ s with timer := s.timer.start s.host.clock }, .done)
  | .stopTimer => ({ s with timer := s.timer.stop s.host.clock }, .done)
  | .put file data =>
    ({ s with host := { s.host with tree := s.host.tree.write s.cwd file data } }, .done)
  | .remove file =>
    ({ s with host := { s.host with tree := s.host.tree.remove s.cwd file } }, .done)
  | .sleep time => (s.elapse time, .done)
  | .waitFile file => (waitFile file 10000 s, .done)

/-- What can be seen after each step: the `view` of each. -/
def views (s : Session) : List Step → List View
  | [] => []
  | step :: rest =>
    let (s, result) := s.take step
    s.view result :: views s rest

end Session

end TestHarness
