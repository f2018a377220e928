import TestHarness.Text.Octets

/-!
# Commands of the shell

The shape of shell scripts once they are read.  What is read only when it is reached, such as the
script inside a command substitution, is kept as it is written.
-/

namespace TestHarness.Shell

/-! ## Words -/

/-- What is done to the value of a parameter. -/
inductive Modifier where
  | none
  /-- Its length. -/
  | length
  /-- Another word in its place if it is unset, or also if it is empty. -/
  | default (orEmpty : Bool) (word : Octets)
  /-- The same, and the parameter is set to the word. -/
  | assign (orEmpty : Bool) (word : Octets)
  /-- An error with a message if it is unset, or also if it is empty. -/
  | require (orEmpty : Bool) (word : Octets)
  /-- A word in place of any value. -/
  | instead (orEmpty : Bool) (word : Octets)
  /-- Without what a pattern matches at its front or back, as little or as much as possible. -/
  | remove (front longest : Bool) (pattern : Octets)
deriving DecidableEq, Repr

/-- A piece of a word.  A quoted piece is never split or matched against file names. -/
inductive Piece where
  | literal (text : Octets) (quoted : Bool)
  | parameter (name : Octets) (modifier : Modifier) (quoted : Bool)
  /-- The output of a script that has to be run first. -/
  | substitution (source : Octets) (quoted : Bool)
  /-- The output of a script that has been run. -/
  | output (text : Octets) (quoted : Bool)
  /-- The value of an arithmetic expression. -/
  | arithmetic (source : Octets) (quoted : Bool)
  /-- A parameter that cannot be read. -/
  | bad
deriving DecidableEq, Repr

/-- A word: pieces without blanks between them. -/
abbrev Word := List Piece

/-! ## Redirections -/

/-- What a redirection makes of a descriptor. -/
inductive Direction where
  /-- Reads a file. -/
  | read
  /-- Writes a file, which is emptied first. -/
  | write
  /-- Writes at the end of a file. -/
  | append
  /-- Reads and writes a file. -/
  | both
  /-- Becomes a copy of another descriptor, or is closed. -/
  | copy
  /-- Reads a text that stands in the script. -/
  | document
deriving DecidableEq, Repr

/-- One redirection. -/
structure Redirection where
  descriptor : Nat
  direction : Direction
  target : Word
deriving DecidableEq, Repr

/-! ## Commands -/

/-- A command. -/
inductive Cmd where
  /-- Does nothing, successfully. -/
  | skip
  /-- Assignments, words and redirections, on a line of the script. -/
  | simple (line : Nat) (assignments : List (Octets × Word)) (words : List Word)
      (redirections : List Redirection)
  | redirected (line : Nat) (body : Cmd) (redirections : List Redirection)
  | sequence (first second : Cmd)
  /-- The second if the first succeeds. -/
  | both (first second : Cmd)
  /-- The second if the first fails. -/
  | either (first second : Cmd)
  | negated (body : Cmd)
  | pipeline (first rest : Cmd)
  | background (body : Cmd)
  | subshell (body : Cmd)
  | branch (condition yes no : Cmd)
  /-- Repeats the body while the condition succeeds, or while it fails. -/
  | loop (whileFails : Bool) (condition body : Cmd)
  /-- Runs the body once per word, or once per argument. -/
  | each (line : Nat) (name : Octets) (words : Option (List Word)) (body : Cmd)
  /-- Runs the first arm with a matching pattern. -/
  | choice (line : Nat) (subject : Word) (arms : Cmd)
  | arm (patterns : List Word) (body rest : Cmd)
  | define (name : Octets) (body : Cmd)
deriving Repr, Inhabited

/-- A script: the commands of its complete lines, and why the rest cannot be read. -/
structure Script where
  lines : List Cmd
  /-- The line and the complaint of an error that ends the script. -/
  error : Option (Nat × Octets) := none
deriving Repr, Inhabited

end TestHarness.Shell
