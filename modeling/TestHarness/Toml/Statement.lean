import TestHarness.Toml.Blank
import TestHarness.Toml.Quoted
import TestHarness.Toml.Scalar
import TestHarness.Toml.Table

/-!
# TOML statements

A document is a sequence of statements, each on lines of its own: a header that opens a table, a
header that opens the next table of an array, or the assignment of a value to a dotted key.

## Contents
* keys: `simpleKey?`, `dottedKey?`
* values: `value?`, whose nesting is limited
* `Statement`, `statement?`, `statements?`
-/

namespace TestHarness.Toml

/-! ## Keys -/

/-- Whether a character may stand in a key without quotes: a letter or digit of ASCII, `_` or
    `-`. -/
def isBareKeyChar (c : Char) : Bool := c.isAlphanum || c = '_' || c = '-'

/-- The key without dots at the front, of `isBareKeyChar`s or in quotes. -/
def simpleKey? (cs : List Char) : Option (String × List Char) :=
  match cs with
  | '"' :: _ => (Quoted.singleLine? cs).map fun (text, rest) => (String.ofList text, rest)
  | '\'' :: _ => (Quoted.singleLine? cs).map fun (text, rest) => (String.ofList text, rest)
  | _ =>
    match cs.takeWhile isBareKeyChar with
    | [] => none
    | key => some (String.ofList key, cs.dropWhile isBareKeyChar)

/-- The keys of a dotted key at the front; `fuel` bounds their number. -/
def dottedKeyWithin? : Nat → List Char → Option (List String × List Char)
  | 0, _ => none
  | fuel + 1, cs => do
    let (key, rest) ← simpleKey? (skipSpaces cs)
    match skipSpaces rest with
    | '.' :: rest =>
      let (keys, rest) ← dottedKeyWithin? fuel rest
      return (key :: keys, rest)
    | rest => return ([key], rest)

/-- The keys of the dotted key at the front, and what follows it and its blanks, by
    `dottedKeyWithin?`. -/
def dottedKey? (cs : List Char) : Option (List String × List Char) :=
  dottedKeyWithin? (cs.length + 1) cs

/-! ## Values -/

/-- A reader: takes something from the front, if it stands there. -/
abbrev Reader (α : Type) := List Char → Option (α × List Char)

/-- The assignment at the front: a dotted key, `=`, and what `value?` reads. -/
def assignment? (value? : Reader Value) : Reader (List String × Value) := fun cs => do
  let (keys, rest) ← dottedKey? cs
  match rest with
  | '=' :: rest =>
    let (v, rest) ← value? (skipSpaces rest)
    return ((keys, v), rest)
  | _ => none

/-- Items with commas between them up to a closing character, `close`. A comma may follow the last
    item; blanks, line ends and comments may stand around each. -/
def itemsUntil? {α : Type} (item? : Reader α) (close : Char) : Nat → Reader (List α)
  | 0, _ => none
  | fuel + 1, cs => do
    let cs ← skipBlank cs
    match cs with
    | [] => none
    | c :: rest =>
      if c = close then return ([], rest)
      else
        let (a, rest) ← item? (c :: rest)
        match ← skipBlank rest with
        | ',' :: rest =>
          let (as, rest) ← itemsUntil? item? close fuel rest
          return (a :: as, rest)
        | c :: rest => if c = close then return ([a], rest) else none
        | [] => none

/-- The value at the front.  Arrays and inline tables may be nested `depth` deep. -/
def valueWithin? : Nat → Reader Value
  | depth, cs =>
    match depth, cs with
    | _, '"' :: _ => (Quoted.quoted? cs).map fun (text, rest) => (.string (String.ofList text), rest)
    | _, '\'' :: _ => (Quoted.quoted? cs).map fun (text, rest) => (.string (String.ofList text), rest)
    | 0, '[' :: _ => none
    | 0, '\x7b' :: _ => none
    | depth + 1, '[' :: rest => do
      let (items, rest) ← itemsUntil? (valueWithin? depth) ']' (rest.length + 1) rest
      return (.array items, rest)
    | depth + 1, '\x7b' :: rest => do
      let (assignments, rest) ←
        itemsUntil? (assignment? (valueWithin? depth)) '\x7d' (rest.length + 1) rest
      return (.table (← inlineTable? assignments), rest)
    | _, cs =>
      (Scalar.scalar? (Scalar.run cs).1).map fun v => (v, (Scalar.run cs).2)

/-- How deep arrays and inline tables may be nested. -/
def maxDepth : Nat := 80

/-- The value at the front, nested at most `maxDepth` deep. -/
def value? : Reader Value := valueWithin? maxDepth

/-! ## Statements -/

/-- A statement of a document: an assignment, a header `[keys]`, or a header `[[keys]]`. -/
inductive Statement where
  | header (keys : List String)
  | arrayHeader (keys : List String)
  | assign (keys : List String) (v : Value)
deriving Repr

/-- The statement at the front, told by its `[` or `[[`. -/
def statement? : Reader Statement
  | '[' :: '[' :: rest => do
    let (keys, rest) ← dottedKey? rest
    match rest with
    | ']' :: ']' :: rest => return (.arrayHeader keys, rest)
    | _ => none
  | '[' :: rest => do
    let (keys, rest) ← dottedKey? rest
    match rest with
    | ']' :: rest => return (.header keys, rest)
    | _ => none
  | cs => (assignment? value? cs).map fun ((keys, v), rest) => (.assign keys v, rest)

/-- All statements; `fuel` bounds their number. -/
def statementsWithin? : Nat → List Char → Option (List Statement)
  | 0, _ => none
  | fuel + 1, cs => do
    match ← skipBlank cs with
    | [] => return []
    | cs =>
      let (s, rest) ← statement? cs
      return s :: (← statementsWithin? fuel (← endLine? rest))

/-- The statements of a text, which a byte order mark `\uFEFF` may open. -/
def statements? (cs : List Char) : Option (List Statement) :=
  match cs with
  | '\uFEFF' :: rest => statementsWithin? (rest.length + 1) rest
  | cs => statementsWithin? (cs.length + 1) cs

end TestHarness.Toml
