import TestHarness.Files.Tree
import TestHarness.Shell.Format

/-!
# Conditions

The conditions of `test` and `[ ]`: comparisons of strings and numbers, and questions about files.

## Contents
* `unary` and `binary`, the operators
* `Condition`, a reader of conditions with `!`, `-a`, `-o` and parentheses
* `condition`, the command
-/

namespace TestHarness.Shell

/-- What a file name denotes. -/
abbrev Lookup := Octets → Option Entry

/-- The operators on one string. -/
def unaryOperators : List Octets :=
  ["-n", "-z", "-e", "-f", "-d", "-r", "-w", "-x", "-s", "-h", "-L", "-p", "-S", "-b", "-c", "-t",
    "-g", "-k", "-u", "-O", "-G"].map String.toList

/-- The operators between two strings. -/
def binaryOperators : List Octets :=
  ["=", "==", "!=", "<", ">", "-eq", "-ne", "-lt", "-le", "-gt", "-ge"].map String.toList

/-- An operator on one string. -/
def unary (files : Lookup) (op arg : Octets) : Bool :=
  match String.ofList op with
  | "-n" => !arg.isEmpty
  | "-z" => arg.isEmpty
  | "-e" => (files arg).isSome
  | "-f" => match files arg with
    | some (.file _) => true
    | some .program => true
    | _ => false
  | "-d" => files arg = some .directory
  | "-r" => (files arg).isSome
  | "-w" => (files arg).isSome
  | "-O" => (files arg).isSome
  | "-G" => (files arg).isSome
  | "-x" => files arg = some .directory || files arg = some .program
  | "-s" => match files arg with
    | some (.file data) => !data.isEmpty
    | some .nullDevice => false
    | some .zeroDevice => false
    | other => other.isSome
  | "-c" => files arg = some .nullDevice || files arg = some .zeroDevice
  | _ => false

/-- A number in a comparison. -/
def comparand (d : Dialect) (arg : Octets) : Except Octets Int :=
  let trimmed := (arg.dropWhile Char.isWhitespace).reverse.dropWhile Char.isWhitespace
  match Octets.integer? trimmed.reverse, d with
  | some n, _ => .ok n
  | none, .shell => .error ("Illegal number: ".toList ++ arg)
  | none, .program => .error ("invalid integer '".toList ++ arg ++ ['\''])

/-- An operator between two strings. -/
def binary (d : Dialect) (a op b : Octets) : Except Octets Bool :=
  let numbers (compare : Int → Int → Bool) : Except Octets Bool :=
    match comparand d a, comparand d b with
    | .ok x, .ok y => .ok (compare x y)
    | .error e, _ => .error e
    | _, .error e => .error e
  match String.ofList op with
  | "=" => .ok (a == b)
  | "==" => .ok (a == b)
  | "!=" => .ok (a != b)
  | "<" => .ok (!Octets.upTo b a)
  | ">" => .ok (!Octets.upTo a b)
  | "-eq" => numbers (· == ·)
  | "-ne" => numbers (· != ·)
  | "-lt" => numbers (decide <| · < ·)
  | "-le" => numbers (decide <| · ≤ ·)
  | "-gt" => numbers fun x y => decide (y < x)
  | _ => numbers fun x y => decide (y ≤ x)

namespace Condition

/-- A condition's value with the arguments after it, or a complaint. -/
abbrev Reading := Except Octets (Bool × List Octets)

mutual

/-- Conditions with `-o` between them. -/
def readAny (d : Dialect) (files : Lookup) : Nat → List Octets → Reading
  | 0, args => .ok (false, args)
  | n + 1, args =>
    match readAll d files n args with
    | .error e => .error e
    | .ok (x, rest) =>
      if rest.head? = some "-o".toList then
        (readAny d files n (rest.drop 1)).map fun (y, rest) => (x || y, rest)
      else .ok (x, rest)

/-- Conditions with `-a` between them. -/
def readAll (d : Dialect) (files : Lookup) : Nat → List Octets → Reading
  | 0, args => .ok (false, args)
  | n + 1, args =>
    match readNot d files n args with
    | .error e => .error e
    | .ok (x, rest) =>
      if rest.head? = some "-a".toList then
        (readAll d files n (rest.drop 1)).map fun (y, rest) => (x && y, rest)
      else .ok (x, rest)

/-- A condition after any number of `!`. -/
def readNot (d : Dialect) (files : Lookup) : Nat → List Octets → Reading
  | 0, args => .ok (false, args)
  | n + 1, args =>
    match args with
    | ['!'] :: next :: rest =>
      if rest.length = 1 ∧ binaryOperators.contains next then readOne d files n args
      else (readNot d files n (next :: rest)).map fun (x, rest) => (!x, rest)
    | _ => readOne d files n args

/-- A single condition. -/
def readOne (d : Dialect) (files : Lookup) : Nat → List Octets → Reading
  | 0, args => .ok (false, args)
  | n + 1, args =>
    match args with
    | [] => .ok (false, [])
    | a :: op :: b :: rest =>
      if binaryOperators.contains op then (binary d a op b).map fun x => (x, rest)
      else if a = ['('] then
        match readAny d files n (op :: b :: rest) with
        | .error e => .error e
        | .ok (x, [')'] :: rest) => .ok (x, rest)
        | .ok _ => .error "closing paren expected".toList
      else if unaryOperators.contains a then .ok (unary files a op, b :: rest)
      else .ok (!a.isEmpty, op :: b :: rest)
    | [a, b] =>
      if unaryOperators.contains a then .ok (unary files a b, [])
      else if binaryOperators.contains b then .error (b ++ ": argument expected".toList)
      else .ok (!a.isEmpty, [b])
    | [a] => .ok (!a.isEmpty, [])

end

end Condition

/-- The command `test`, or `[` which needs `]` as its last argument. -/
def condition (d : Dialect) (files : Lookup) (bracket : Bool) (args : List Octets) : Report :=
  if bracket && args.getLast? ≠ some [']'] then Report.ofComplaint (if d = .shell then "missing ]" else "missing ']'") 2
  else
    let args := if bracket then args.dropLast else args
    match Condition.readAny d files (4 * args.length + 4) args with
    | .error e => { written := [.inr e], status := 2 }
    | .ok (x, []) => { status := if x then 0 else 1 }
    | .ok (_, rest) =>
      let shown := args.getD (args.length - rest.length - 1) []
      { written := [.inr (shown ++ ": unexpected operator".toList)], status := 2 }

end TestHarness.Shell
