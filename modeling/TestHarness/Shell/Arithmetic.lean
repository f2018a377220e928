import TestHarness.Text.Octets

/-!
# Arithmetic of the shell

Expressions on 64-bit integers, as they stand inside `$(( ))`.  An expression is read as a whole
before any of it is worked out.

## Contents
* `Expr` and its reader, `Expr.ofText`
* `Expr.eval`, on a store of variables
-/

namespace TestHarness.Shell

/-- An arithmetic expression. -/
inductive Expr where
  | number (n : Int)
  | named (name : Octets)
  | unary (op : Char) (e : Expr)
  | binary (op : Octets) (a b : Expr)
  | conditional (test yes no : Expr)
  /-- Assigns the value, or what an operator makes of the old value and it. -/
  | assign (name op : Octets) (e : Expr)
deriving Repr, Inhabited

namespace Expr

/-! ## Reading -/

/-- A unit of an expression. -/
inductive Atom where
  | number (n : Int)
  | name (text : Octets)
  | operator (text : Octets)
  /-- A character that starts nothing. -/
  | other (c : Char)
deriving DecidableEq, Repr

/-- The operators, each before its own beginnings. -/
def operators : List Octets :=
  ["<<=", ">>=", "&&", "||", "==", "!=", "<=", ">=", "<<", ">>", "+=", "-=", "*=", "/=", "%=", "&=",
    "^=", "|=", "+", "-", "*", "/", "%", "<", ">", "!", "~", "&", "^", "|", "?", ":", "=", "(",
    ")"].map String.toList

/-- The value of a digit in bases up to sixteen. -/
def digitValue (c : Char) : Nat :=
  if c.isDigit then c.toNat - 0x30 else c.toLower.toNat - 0x57

/-- The number that digits of a base write. -/
def valueOf (base : Nat) (cs : Octets) : Int := cs.foldl (fun n c => n * base + digitValue c) 0

/-- The digits at the front that belong to a base. -/
def digitsOf (base : Nat) (cs : Octets) : Octets :=
  cs.takeWhile fun c => (c.isDigit || ('a' ≤ c.toLower && c.toLower ≤ 'f')) && digitValue c < base

/-- The number at the front, in base ten, eight or sixteen, and what follows it. -/
def literal (cs : Octets) : Int × Octets :=
  let read (base : Nat) (cs : Octets) : Int × Octets :=
    (valueOf base (digitsOf base cs), cs.drop (digitsOf base cs).length)
  match cs with
  | '0' :: x :: rest =>
    if (x = 'x' ∨ x = 'X') ∧ !(digitsOf 16 rest).isEmpty then read 16 rest else read 8 cs
  | _ => read 10 cs

/-- The units of an expression. -/
def atoms : Nat → Octets → List Atom
  | 0, _ => []
  | _, [] => []
  | n + 1, c :: rest =>
    if c.isWhitespace then atoms n rest
    else if c.isDigit then
      let (v, after) := literal (c :: rest)
      .number v :: atoms n after
    else if c.isAlpha || c = '_' then
      let continues (d : Char) : Bool := d.isAlphanum || d = '_'
      .name (c :: rest.takeWhile continues) :: atoms n (rest.dropWhile continues)
    else match operators.find? (·.isPrefixOf (c :: rest)) with
      | none => .other c :: atoms n rest
      | some op => .operator op :: atoms n ((c :: rest).drop op.length)

/-- How tightly a binary operator binds. -/
def strength (op : Octets) : Option Nat :=
  match String.ofList op with
  | "||" => some 1
  | "&&" => some 2
  | "|" => some 3
  | "^" => some 4
  | "&" => some 5
  | "==" | "!=" => some 6
  | "<" | "<=" | ">" | ">=" => some 7
  | "<<" | ">>" => some 8
  | "+" | "-" => some 9
  | "*" | "/" | "%" => some 10
  | _ => none

/-- Whether an operator assigns. -/
def assigns (op : Octets) : Bool :=
  ["=", "+=", "-=", "*=", "/=", "%=", "&=", "^=", "|=", "<<=", ">>="].contains (String.ofList op)

/-- An expression with the units after it, or what is missing. -/
abbrev Reading := Except String (Expr × List Atom)

mutual

/-- Reads a number, a variable, or an expression in parentheses. -/
def readPrimary : Nat → List Atom → Reading
  | 0, _ => .error "expecting primary"
  | n + 1, us =>
    match us with
    | .number v :: rest => .ok (number v, rest)
    | .name x :: rest => .ok (named x, rest)
    | .operator ['('] :: rest =>
      match readAny n rest with
      | .ok (e, .operator [')'] :: rest) => .ok (e, rest)
      | .ok _ => .error "expecting ')'"
      | .error e => .error e
    | .operator [op] :: rest =>
      if "+-!~".toList.contains op then
        (readPrimary n rest).map fun (e, rest) => (unary op e, rest)
      else .error "expecting primary"
    | _ => .error "expecting primary"

/-- Reads binary operators that bind at least as tightly as `least`. -/
def readBinary (least : Nat) : Nat → List Atom → Reading
  | 0, _ => .error "expecting primary"
  | n + 1, us =>
    match readPrimary n us with
    | .error e => .error e
    | .ok (e, rest) => readMoreBinary least n e rest

/-- Reads binary operators after an expression. -/
def readMoreBinary (least : Nat) : Nat → Expr → List Atom → Reading
  | 0, e, us => .ok (e, us)
  | n + 1, e, us =>
    match us with
    | .operator op :: rest =>
      match strength op with
      | none => .ok (e, us)
      | some s =>
        if s < least then .ok (e, us)
        else match readBinary (s + 1) n rest with
          | .error e => .error e
          | .ok (b, rest) => readMoreBinary least n (binary op e b) rest
    | _ => .ok (e, us)

/-- Reads any expression. -/
def readAny : Nat → List Atom → Reading
  | 0, _ => .error "expecting primary"
  | n + 1, us =>
    let other : Reading :=
      match readBinary 1 n us with
      | .ok (test, .operator ['?'] :: rest) =>
        match readAny n rest with
        | .ok (yes, .operator [':'] :: rest) =>
          (readAny n rest).map fun (no, rest) => (conditional test yes no, rest)
        | .ok _ => .error "expecting ':'"
        | .error e => .error e
      | result => result
    match us with
    | .name x :: .operator op :: rest =>
      if assigns op then (readAny n rest).map fun (e, rest) => (assign x op.dropLast e, rest) else other
    | _ => other

end

/-- The expression that a text writes, or what is missing.  An empty text writes zero. -/
def ofText (text : Octets) : Except String Expr :=
  match atoms (text.length + 1) text with
  | [] => .ok (number 0)
  | us =>
    match readAny (8 * us.length + 8) us with
    | .ok (e, []) => .ok e
    | .ok _ => .error "expecting EOF"
    | .error e => .error e

/-! ## Working out -/

/-- A number as 64 bits hold it. -/
def wrap (n : Int) : Int := Int.bmod n (Nat.pow 2 64)

/-- One for true and zero for false. -/
def ofBool (b : Bool) : Int := if b then 1 else 0

/-- The number whose bits `combine` makes of the bits of two others. -/
def onBits (combine : Nat → Nat → Nat) (a b : Int) : Int :=
  wrap (combine (a % Int.pow 2 64).toNat (b % Int.pow 2 64).toNat)

/-- A binary operator on two numbers; none for a division by zero. -/
def apply (op : Octets) (a b : Int) : Option Int :=
  match String.ofList op with
  | "+" => some (wrap (a + b))
  | "-" => some (wrap (a - b))
  | "*" => some (wrap (a * b))
  | "/" => if b = 0 then none else some (wrap (Int.tdiv a b))
  | "%" => if b = 0 then none else some (wrap (Int.tmod a b))
  | "==" => some (ofBool (a == b))
  | "!=" => some (ofBool (a != b))
  | "<" => some (ofBool (a < b))
  | "<=" => some (ofBool (a ≤ b))
  | ">" => some (ofBool (b < a))
  | ">=" => some (ofBool (b ≤ a))
  | "<<" => some (wrap (a * Int.pow 2 (b % 64).toNat))
  | ">>" => some (a / Int.pow 2 (b % 64).toNat)
  | "&" => some (onBits (· &&& ·) a b)
  | "|" => some (onBits (· ||| ·) a b)
  | "^" => some (onBits (· ^^^ ·) a b)
  | "&&" => some (ofBool (a != 0 && b != 0))
  | "||" => some (ofBool (a != 0 || b != 0))
  | _ => some b

/-- Variables with their values. -/
abbrev Store := List (Octets × Octets)

/-- The number in a variable: zero if it is unset or empty, or a complaint. -/
def Store.number (store : Store) (x : Octets) : Except String Int :=
  match (store.lookup x).getD [] with
  | [] => .ok 0
  | text =>
    let (negative, digits) := match text with
      | '-' :: rest => (true, rest)
      | '+' :: rest => (false, rest)
      | _ => (false, text)
    match literal digits with
    | (n, []) =>
      if digits.isEmpty then .error ("Illegal number: " ++ String.ofList text)
      else .ok (wrap (if negative then -n else n))
    | _ => .error ("Illegal number: " ++ String.ofList text)

/-- The value of an expression and the variables after it, or a complaint. -/
def eval (store : Store) : Expr → Except String (Int × Store)
  | number n => .ok (wrap n, store)
  | named x => (store.number x).map fun n => (n, store)
  | unary op e =>
    (eval store e).map fun (v, store) =>
      (match op with
        | '-' => wrap (-v)
        | '!' => ofBool (v == 0)
        | '~' => wrap (-v - 1)
        | _ => v, store)
  | binary op a b =>
    match eval store a with
    | .error e => .error e
    | .ok (x, store) =>
      if op = "&&".toList ∧ x = 0 then .ok (0, store)
      else if op = "||".toList ∧ x ≠ 0 then .ok (1, store)
      else match eval store b with
        | .error e => .error e
        | .ok (y, store) =>
          match apply op x y with
          | some v => .ok (v, store)
          | none => .error "division by zero"
  | conditional test yes no =>
    match eval store test with
    | .error e => .error e
    | .ok (x, store) => if x ≠ 0 then eval store yes else eval store no
  | assign x op e =>
    match store.number x, eval store e with
    | .error e, _ => .error e
    | _, .error e => .error e
    | .ok old, .ok (v, store) =>
      match if op.isEmpty then some v else apply op old v with
      | none => .error "division by zero"
      | some v => .ok (v, (x, Octets.ofInt v) :: store.filter (·.1 ≠ x))

end Expr

end TestHarness.Shell
