import TestHarness.Shell.Expand
import TestHarness.Shell.Parser

/-!
# The state of a shell

A shell runs one small task after the other.  What it still has to do is a list of tasks: running a
command puts the tasks of its parts in front.

## Contents
* `Task` and `State`
* looking for command substitutions: `Cmd.substitution?` and `Cmd.fill`
* leaving loops, functions and the shell: `State.unwind`
-/

namespace TestHarness.Shell

/-- One thing that a shell has to do. -/
inductive Task where
  | run (c : Cmd)
  /-- Runs the command if the last one succeeded. -/
  | ifOk (c : Cmd)
  /-- Runs the command if the last one failed. -/
  | ifFailed (c : Cmd)
  /-- Turns success into failure and back. -/
  | negate
  /-- One of two commands, as the last one succeeded or failed. -/
  | choose (yes no : Cmd)
  /-- The body of a loop or its end, after the condition has been run. -/
  | decide (whileFails : Bool) (condition body : Cmd) (last : Nat)
  /-- The condition of a loop, after the body has been run. -/
  | again (whileFails : Bool) (condition body : Cmd)
  /-- The body of a loop for each of the values left. -/
  | each (name : Octets) (values : List Octets) (body : Cmd)
  /-- Gives descriptors back what they were. -/
  | restore (saved : List (Nat × Option Nat))
  /-- Gives variables back their values. -/
  | revert (saved : List (Octets × Option Octets))
  /-- The end of a function: its caller's arguments. -/
  | leave (arguments : List Octets)
  /-- Sets the status of the last command. -/
  | setStatus (n : Nat)
  /-- Ends the shell if the last command failed and failures are to end it. -/
  | check
  /-- Waits for processes of a pipeline; the status is that of the last. -/
  | await (pids : List Nat) (last : Nat)
  /-- Waits for background processes; a signal ends it.  The end of a process that was named is
      reported. -/
  | waitFor (pids : List Nat) (named : Bool)
  /-- Reads the output of a command substitution, and then runs the command it stands in. -/
  | gather (pid descriptor : Nat) (text : Octets) (c : Cmd)
  /-- Reads a line into variables. -/
  | readLine (names : List Octets) (raw : Bool)
  /-- The lines of a script that are left. -/
  | script (s : Script)
  /-- The end of a sourced script, to which `return` goes. -/
  | sourced
  /-- Runs what is to be run at the end, and ends. -/
  | finish
  /-- Ends. -/
  | stop
deriving Repr, Inhabited

/-- A shell. -/
structure State where
  tasks : List Task := []
  scope : Scope := {}
  /-- What is run when a signal comes; the number zero stands for the end of the shell. -/
  traps : List (Nat × Octets) := []
  /-- The signals that have come and whose actions have not been run. -/
  pending : List Nat := []
  functions : List (Octets × Cmd) := []
  /-- The line of the command that is run. -/
  line : Nat := 1
  /-- The status of the last command substitution of the command that is run. -/
  substituted : Option Nat := none
deriving Repr, Inhabited

namespace State

/-- Puts tasks in front. -/
def push (s : State) (tasks : List Task) : State := { s with tasks := tasks ++ s.tasks }

/-- Sets the status of the last command. -/
def withStatus (s : State) (n : Nat) : State := { s with scope := { s.scope with status := n } }

/-- The status of the last command. -/
def status (s : State) : Nat := s.scope.status

end State

/-! ## Command substitutions -/

/-- Splits octets around the first substitution that they write: what is before it, its script, and
    what is after it.  The number bounds their length. -/
def cutSubstitution : Nat → Octets → Option (Octets × Octets × Octets)
  | 0, _ => none
  | n + 1, cs =>
    let later (skipped : Octets) (rest : Octets) :=
      (cutSubstitution n rest).map fun (before, script, after) => (skipped ++ before, script, after)
    match cs with
    | [] => none
    | '\\' :: c :: rest => later ['\\', c] rest
    | '$' :: '(' :: '(' :: rest => later "$((".toList rest
    | '$' :: '(' :: rest => (closing '(' ')' 0 none false rest).map fun (script, after) => ([], script, after)
    | '`' :: rest => (backquoted false rest).map fun (script, after) => ([], script, after)
    | c :: rest => later [c] rest

/-- The octets that a piece keeps as they are written, and the piece with other octets there. -/
def Piece.source? : Piece → Option (Octets × (Octets → Piece))
  | .arithmetic source quoted => some (source, fun text => .arithmetic text quoted)
  | .parameter name modifier quoted =>
    let inside (word : Octets) (change : Octets → Modifier) : Option (Octets × (Octets → Piece)) :=
      some (word, fun text => .parameter name (change text) quoted)
    match modifier with
    | .default orEmpty word => inside word (.default orEmpty)
    | .assign orEmpty word => inside word (.assign orEmpty)
    | .require orEmpty word => inside word (.require orEmpty)
    | .instead orEmpty word => inside word (.instead orEmpty)
    | .remove front longest pattern => inside pattern (.remove front longest)
    | _ => none
  | _ => none

/-- Octets in which nothing has a meaning any more. -/
def protect (text : Octets) : Octets :=
  text.flatMap fun c => if "$`\"\\".toList.contains c then ['\\', c] else [c]

/-- The script of the first substitution in a piece. -/
def Piece.substitution? : Piece → Option Octets
  | .substitution source _ => some source
  | p => p.source?.bind fun (source, _) =>
      (cutSubstitution (source.length + 1) source).map fun (_, script, _) => script

/-- A piece with its first substitution replaced by its output, if it has one. -/
def Piece.fill? (text : Octets) : Piece → Option Piece
  | .substitution _ quoted => some (.output text quoted)
  | p => p.source?.bind fun (source, change) =>
      (cutSubstitution (source.length + 1) source).map fun (before, _, after) =>
        change (before ++ protect text ++ after)

/-- The script of the first substitution in a word. -/
def Word.substitution? (w : Word) : Option Octets := w.findSome? Piece.substitution?

/-- The list with its first changeable element changed. -/
def changeFirst {α : Type} (change : α → Option α) : List α → Option (List α)
  | [] => none
  | a :: rest =>
    match change a with
    | some b => some (b :: rest)
    | none => (changeFirst change rest).map (a :: ·)

/-- The word with its first substitution replaced by its output. -/
def Word.fill? (text : Octets) (w : Word) : Option Word := changeFirst (Piece.fill? text) w

namespace Cmd

/-- The words of a command that are expanded when the command itself is run, in order. -/
def words : Cmd → List Word
  | simple _ assignments words redirections =>
    words ++ redirections.map Redirection.target ++ assignments.map (·.2)
  | redirected _ _ redirections => redirections.map Redirection.target
  | each _ _ words _ => words.getD []
  | choice _ subject _ => [subject]
  | _ => []

/-- The script of the first substitution that a command has to run. -/
def substitution? (c : Cmd) : Option Octets := c.words.findSome? Word.substitution?

/-- The redirections with the first substitution replaced. -/
def fillRedirections (text : Octets) (rs : List Redirection) : Option (List Redirection) :=
  changeFirst (fun r => (Word.fill? text r.target).map fun target => { r with target }) rs

/-- The command with its first substitution replaced by its output. -/
def fill (text : Octets) : Cmd → Cmd
  | simple line assignments words redirections =>
    match changeFirst (Word.fill? text) words with
    | some words => simple line assignments words redirections
    | none =>
      match fillRedirections text redirections with
      | some redirections => simple line assignments words redirections
      | none =>
        let filled := changeFirst
          (fun a => (Word.fill? text a.2).map fun value => (a.1, value)) assignments
        simple line (filled.getD assignments) words redirections
  | redirected line body redirections =>
    redirected line body ((fillRedirections text redirections).getD redirections)
  | each line name words body =>
    each line name (words.map fun ws => (changeFirst (Word.fill? text) ws).getD ws) body
  | choice line subject arms => choice line ((Word.fill? text subject).getD subject) arms
  | c => c

/-- The line of a command. -/
def line? : Cmd → Option Nat
  | simple line .. => some line
  | redirected line .. => some line
  | each line .. => some line
  | choice line .. => some line
  | _ => none

/-- The commands of a pipeline. -/
def stages : Cmd → List Cmd
  | pipeline first rest => first :: rest.stages
  | c => [c]

end Cmd

/-! ## Leaving -/

namespace Task

/-- Whether a task belongs to a loop that is under way. -/
def isLoop : Task → Bool
  | decide .. => true
  | again .. => true
  | each .. => true
  | _ => false

/-- Whether `return` leaves at this task. -/
def isCall : Task → Bool
  | leave _ => true
  | sourced => true
  | _ => false

/-- Whether a task looks at the status of the command before it, which then may fail. -/
def looksAtStatus : Task → Bool
  | ifOk _ => true
  | ifFailed _ => true
  | negate => true
  | choose .. => true
  | decide .. => true
  | _ => false

/-- Whether a task undoes something, so that it must be run even if the tasks around it are left. -/
def undoes : Task → Bool
  | restore _ => true
  | revert _ => true
  | _ => false

end Task

/-- The tasks from the first one on that satisfies `here`, after those before it that undo
    something.  Nothing leaves a call but `return`. -/
def unwind (here : Task → Bool) : List Task → Option (List Task)
  | [] => none
  | t :: rest =>
    if here t then some (t :: rest)
    else if t.isCall then none
    else (unwind here rest).map fun tasks => if t.undoes then t :: tasks else tasks

/-- The tasks after `break` out of that many loops. -/
def breakLoops : Nat → List Task → List Task
  | 0, tasks => tasks
  | n + 1, tasks =>
    match unwind Task.isLoop tasks with
    | none => tasks
    | some found =>
      found.takeWhile (!·.isLoop) ++ breakLoops n ((found.dropWhile (!·.isLoop)).drop 1)

/-- The tasks after `continue` of the loop that many loops out. -/
def continueLoop (n : Nat) (tasks : List Task) : List Task :=
  match unwind Task.isLoop (breakLoops (n - 1) tasks) with
  | none => tasks
  | some found =>
    let back := found.dropWhile (!·.isLoop)
    found.takeWhile (!·.isLoop) ++ match back with
      | .decide whileFails condition body _ :: rest => .again whileFails condition body :: rest
      | _ => back

end TestHarness.Shell
