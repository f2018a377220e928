import TestHarness.Text.Octets

/-!
# Formatted output

What `echo` and `printf` write.  Both exist twice, inside the shell and as programs, and the two
speak slightly different dialects.

## Contents
* `Report`, what a finished command leaves
* escapes: `escapeAt`, `unescape`
* `echo`
* `printf`
-/

namespace TestHarness.Shell

/-- Which of its two forms a command has. -/
inductive Dialect where
  /-- Inside the shell. -/
  | shell
  /-- A program of its own. -/
  | program
deriving DecidableEq, Repr

/-- What a finished command has written, in order, and its status.  A complaint goes to the error
    stream. -/
structure Report where
  written : List (Octets ⊕ Octets) := []
  status : Nat := 0
deriving Repr, Inhabited

namespace Report

/-- A report of output only. -/
def ofOutput (text : Octets) : Report := { written := [.inl text] }

/-- A report of a complaint only. -/
def ofComplaint (text : String) (status : Nat) : Report :=
  { written := [.inr text.toList], status }

/-- All output, in order. -/
def output (r : Report) : Octets := r.written.flatMap fun part => match part with
  | .inl text => text
  | .inr _ => []

/-- The complaints, in order. -/
def complaints (r : Report) : List Octets := r.written.filterMap fun part => match part with
  | .inl _ => none
  | .inr text => some text

end Report

/-! ## Escapes -/

/-- Whether a character is an octal digit. -/
def isOctal (c : Char) : Bool := '0' ≤ c && c ≤ '7'

/-- The octet of some octal digits. -/
def octalOctet (digits : Octets) : Char :=
  Char.ofNat (digits.foldl (fun n c => n * 8 + (c.toNat - 0x30)) 0 % 256)

/-- The character that a letter after a backslash stands for. -/
def letterEscape : Char → Option Char
  | 'a' => some '\x07'
  | 'b' => some '\x08'
  | 'e' => some '\x1b'
  | 'f' => some '\x0c'
  | 'n' => some '\n'
  | 'r' => some '\r'
  | 't' => some '\t'
  | 'v' => some '\x0b'
  | '\\' => some '\\'
  | _ => none

/-- The digit value of a hexadecimal digit. -/
def hexValue? (c : Char) : Option Nat :=
  if c.isDigit then some (c.toNat - 0x30)
  else if 'a' ≤ c.toLower ∧ c.toLower ≤ 'f' then some (c.toLower.toNat - 0x57)
  else none

/-- The octet that stands after a backslash, and what follows it; none if the backslash stands for
    itself. -/
def escapeAt (d : Dialect) (cs : Octets) : Option (Char × Octets) :=
  match cs with
  | [] => none
  | c :: rest =>
    if isOctal c then
      let digits := (cs.take 3).takeWhile isOctal
      some (octalOctet digits, cs.drop digits.length)
    else match d, c with
      | .program, 'x' =>
        let digits := ((rest.take 2).takeWhile fun c => (hexValue? c).isSome).filterMap hexValue?
        if digits.isEmpty then none
        else some (Char.ofNat (digits.foldl (fun n v => n * 16 + v) 0), rest.drop digits.length)
      | .program, '"' => some ('"', rest)
      | _, c => (letterEscape c).map fun e => (e, rest)

/-- Replaces the escapes of a text.  An octal escape may have one more zero in front, and `\c` ends
    all output.  The number bounds the length of the text. -/
def unescape (d : Dialect) : Nat → Octets → Octets × Bool
  | 0, _ => ([], false)
  | _, [] => ([], false)
  | n + 1, '\\' :: cs =>
    if cs.head? = some 'c' then ([], true)
    else
      let octal := match cs with
        | '0' :: digit :: _ => isOctal digit
        | _ => false
      match escapeAt d (if octal then cs.drop 1 else cs) with
      | some (c, rest) => let (text, ended) := unescape d n rest; (c :: text, ended)
      | none => let (text, ended) := unescape d n cs; ('\\' :: text, ended)
  | n + 1, c :: cs => let (text, ended) := unescape d n cs; (c :: text, ended)

/-! ## Echo -/

/-- Whether an argument consists of options of the program's form. -/
def isEchoOption (arg : Octets) : Bool :=
  match arg with
  | '-' :: letters => !letters.isEmpty && letters.all "neE".toList.contains
  | _ => false

/-- Writes the arguments with blanks between them. -/
def echo (d : Dialect) (args : List Octets) : Report :=
  let (args, newline, escapes) := match d with
    | .shell =>
      if args.head? = some "-n".toList then (args.drop 1, false, true) else (args, true, true)
    | .program =>
      let letters := (args.takeWhile isEchoOption).flatten
      (args.dropWhile isEchoOption, !letters.contains 'n',
        (letters.filter fun c => c = 'e' || c = 'E').getLast? = some 'e')
  let text := Octets.join [' '] args
  let (text, ended) := if escapes then unescape d text.length text else (text, false)
  Report.ofOutput (text ++ if newline && !ended then ['\n'] else [])

/-! ## Printf -/

/-- The parts of a directive between `%` and its letter. -/
structure Directive where
  left : Bool := false
  plus : Bool := false
  blank : Bool := false
  marked : Bool := false
  zeros : Bool := false
  width : Nat := 0
  precision : Option Nat := none

namespace Directive

/-- Fills a text up to the width. -/
def pad (d : Directive) (text : Octets) : Octets :=
  let fill := List.replicate (d.width - text.length) ' '
  if d.left then text ++ fill else fill ++ text

/-- A string as the directive lays it out. -/
def string (d : Directive) (text : Octets) : Octets :=
  d.pad (match d.precision with
    | some n => text.take n
    | none => text)

/-- Digits after a sign or mark as the directive lays them out. -/
def digits (d : Directive) (sign text : Octets) : Octets :=
  let text := List.replicate (d.precision.getD 1 - text.length) '0' ++ text
  let zeros := if d.zeros && !d.left && d.precision.isNone then d.width - sign.length - text.length else 0
  d.pad (sign ++ List.replicate zeros '0' ++ text)

/-- A number as the directive with that letter lays it out. -/
def number (d : Directive) (letter : Char) (n : Int) : Octets :=
  let unsigned := (n % Int.pow 2 64).toNat
  match letter with
  | 'd' | 'i' =>
    d.digits (if n < 0 then ['-'] else if d.plus then ['+'] else if d.blank then [' '] else [])
      (Octets.ofNat n.natAbs)
  | 'o' => d.digits [] ((if d.marked && unsigned ≠ 0 then ['0'] else []) ++ Nat.toDigits 8 unsigned)
  | 'x' => d.digits (if d.marked && unsigned ≠ 0 then "0x".toList else []) (Nat.toDigits 16 unsigned)
  | 'X' =>
    d.digits (if d.marked && unsigned ≠ 0 then "0X".toList else [])
      ((Nat.toDigits 16 unsigned).map Char.toUpper)
  | _ => d.digits [] (Octets.ofNat unsigned)

end Directive

/-- The number at the front of a text and what follows it. -/
def leadingNumber (text : Octets) : Option (Int × Octets) :=
  let text := text.dropWhile Char.isWhitespace
  let (negative, text) := match text with
    | '-' :: rest => (true, rest)
    | '+' :: rest => (false, rest)
    | _ => (false, text)
  let sign (n : Nat) : Int := if negative then -(n : Int) else n
  match text with
  | '0' :: 'x' :: rest =>
    let digits := (rest.takeWhile fun c => (hexValue? c).isSome).filterMap hexValue?
    some (sign (digits.foldl (fun n v => n * 16 + v) 0), rest.drop digits.length)
  | '0' :: rest =>
    let digits := rest.takeWhile isOctal
    some (sign (digits.foldl (fun n c => n * 8 + (c.toNat - 0x30)) 0), rest.drop digits.length)
  | _ =>
    let digits := text.takeWhile Char.isDigit
    if digits.isEmpty then none
    else some (sign ((Octets.natural? digits).getD 0), text.drop digits.length)

/-- The number that an argument gives, with a complaint if it is not one. -/
def numberOf (d : Dialect) (arg : Octets) : Int × Option Octets :=
  let quoted := match d with
    | .shell => arg
    | .program => '\'' :: arg ++ ['\'']
  match arg with
  | '\'' :: c :: _ => (c.toNat, none)
  | '"' :: c :: _ => (c.toNat, none)
  | _ =>
    match leadingNumber arg with
    | some (n, []) => (n, none)
    | some (n, _) =>
      (n, some (quoted ++ match d with
        | .shell => ": not completely converted".toList
        | .program => ": value not completely converted".toList))
    | none =>
      (0, if d = .shell ∧ arg.isEmpty then none
        else some (quoted ++ match d with
          | .shell => ": expected numeric value".toList
          | .program => ": expected a numeric value".toList))

/-- A `printf` under way: the arguments left, what has been written, and whether output has ended. -/
structure Printing where
  args : List Octets
  report : Report := {}
  /-- Whether any directive has taken an argument. -/
  took : Bool := false
  ended : Bool := false

namespace Printing

/-- Writes text. -/
def write (p : Printing) (text : Octets) : Printing :=
  { p with report := { p.report with written := p.report.written ++ [.inl text] } }

/-- Complains. -/
def complain (p : Printing) (text : Octets) : Printing :=
  { p with report := { written := p.report.written ++ [.inr text], status := 1 } }

/-- Complains, and ends all output. -/
def abandon (p : Printing) (status : Nat) (text : Octets) : Printing :=
  { p with report := { written := p.report.written ++ [.inr text], status }, ended := true }

/-- Takes the next argument. -/
def next (p : Printing) : Octets × Printing :=
  (p.args.headD [], { p with args := p.args.drop 1, took := true })

/-- The flags at the front of a directive, and what follows. -/
def flags (d : Directive) : Octets → Directive × Octets
  | '-' :: rest => flags { d with left := true } rest
  | '+' :: rest => flags { d with plus := true } rest
  | ' ' :: rest => flags { d with blank := true } rest
  | '#' :: rest => flags { d with marked := true } rest
  | '0' :: rest => flags { d with zeros := true } rest
  | rest => (d, rest)

/-- The number at the front of a directive, which an argument may give. -/
def measure (dialect : Dialect) (p : Printing) : Octets → Int × Printing × Octets
  | '*' :: rest =>
    let (arg, p) := p.next
    ((numberOf dialect arg).1, p, rest)
  | rest => (((Octets.natural? (rest.takeWhile Char.isDigit)).getD 0 : Nat), p, rest.dropWhile Char.isDigit)

/-- Writes one directive, whose text after `%` is given, and gives what follows it. -/
def directive (dialect : Dialect) (p : Printing) (cs : Octets) : Printing × Octets :=
  let (d, rest) := flags {} cs
  let (width, p, rest) := measure dialect p rest
  let d := { d with width := width.natAbs, left := d.left || width < 0 }
  let (d, p, rest) := match rest with
    | '.' :: rest =>
      let (precision, p, rest) := measure dialect p rest
      ({ d with precision := if precision < 0 then none else some precision.toNat }, p, rest)
    | _ => (d, p, rest)
  match rest with
  | '%' :: rest => (p.write ['%'], rest)
  | 's' :: rest =>
    let (arg, p) := p.next
    (p.write (d.string arg), rest)
  | 'c' :: rest =>
    let (arg, p) := p.next
    let text := match dialect with
      | .shell => [arg.headD '\x00']
      | .program => arg.take 1
    (p.write (d.pad text), rest)
  | 'b' :: rest =>
    let (arg, p) := p.next
    let (text, ended) := unescape dialect arg.length arg
    ({ p.write (d.string text) with ended }, rest)
  | letter :: rest =>
    if "diouxX".toList.contains letter then
      let (n, complaint) := if p.args.isEmpty then (0, none) else numberOf dialect p.next.1
      let p := match complaint with
        | some text => p.next.2.complain text
        | none => p.next.2
      (p.write (d.number letter n), rest)
    else
      let text := '%' :: cs.take (cs.length - rest.length)
      (match dialect with
        | .shell => p.abandon 2 (text ++ ": invalid directive".toList)
        | .program => p.abandon 1 (text ++ ": invalid conversion specification".toList), [])
  | [] =>
    (match dialect with
      | .shell => p.abandon 2 "missing format character".toList
      | .program => p.abandon 1 ('%' :: cs ++ ": invalid conversion specification".toList), [])

/-- Writes a format once.  The number bounds its length. -/
def once (dialect : Dialect) : Nat → Printing → Octets → Printing
  | 0, p, _ => p
  | _, p, [] => p
  | n + 1, p, '\\' :: cs =>
    if dialect = .program ∧ cs.head? = some 'c' then { p with ended := true }
    else match escapeAt dialect cs with
      | some (c, rest) => once dialect n (p.write [c]) rest
      | none => once dialect n (p.write ['\\']) cs
  | n + 1, p, '%' :: cs =>
    let (p, rest) := directive dialect p cs
    if p.ended then p else once dialect n p rest
  | n + 1, p, c :: cs => once dialect n (p.write [c]) cs

/-- Writes a format as often as it takes to use up the arguments, at most that number of times. -/
def all (dialect : Dialect) (format : Octets) : Nat → Printing → Printing
  | 0, p => p
  | n + 1, p =>
    let p := once dialect format.length { p with took := false } format
    if p.ended || !p.took || p.args.isEmpty then p else all dialect format n p

end Printing

/-- Writes arguments as a format says. -/
def printf (dialect : Dialect) (args : List Octets) : Report :=
  let args := if args.head? = some "--".toList then args.drop 1 else args
  match args with
  | [] =>
    match dialect with
    | .shell => Report.ofComplaint "usage: printf format [arg ...]" 2
    | .program => Report.ofComplaint "missing operand" 1
  | format :: args =>
    let p := Printing.all dialect format (args.length + 1) { args }
    match dialect, p.args with
    | .program, extra :: _ =>
      if p.ended then p.report
      else
        let warning := "warning: ignoring excess arguments, starting with '".toList ++ extra ++ ['\'']
        { p.report with written := p.report.written ++ [.inr warning] }
    | _, _ => p.report

end TestHarness.Shell
