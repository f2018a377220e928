/-!
# Signals

The signals that a harness may ask a runner to deliver.
-/

namespace TestHarness

/-- A named signal. -/
inductive Signal where
  | hup
  | int
  | quit
  | kill
  | usr1
  | usr2
  | term
deriving DecidableEq, Repr, Inhabited

namespace Signal

/-- Every signal, in declaration order. -/
def all : List Signal := [hup, int, quit, kill, usr1, usr2, term]

/-- The short name, such as `TERM`. -/
def shortName : Signal → String
  | hup => "HUP"
  | int => "INT"
  | quit => "QUIT"
  | kill => "KILL"
  | usr1 => "USR1"
  | usr2 => "USR2"
  | term => "TERM"

/-- The full name, such as `SIGTERM`, which is how a signal is displayed. -/
def name (s : Signal) : String := "SIG" ++ s.shortName

/-- The signal's number. -/
def number : Signal → Nat
  | hup => 1
  | int => 2
  | quit => 3
  | kill => 9
  | usr1 => 10
  | usr2 => 12
  | term => 15

/-- The signal of that `name` or `shortName`. The case of ASCII letters does not matter. -/
def ofName? (text : String) : Option Signal :=
  let folded := String.ofList (text.toList.map Char.toUpper)
  all.find? fun s => s.name == folded || s.shortName == folded

end Signal

end TestHarness
