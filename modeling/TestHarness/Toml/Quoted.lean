import TestHarness.Json.Literal

/-!
# TOML strings

There are four forms: basic strings with escapes and literal strings without, each on one line or on
several.  The functions here start after the opening quotes and give the text and what follows the
closing quotes.

## Contents
* `escape?`
* one line: `basic?`, `literal?`
* several lines: `multilineBasic?`, `multilineLiteral?`
* `quoted?`, which tells the forms apart
* writing: `encodeChar`, `write`
-/

namespace TestHarness.Toml.Quoted

/-! ## Escapes -/

/-- A character by its code point, surrogates excluded. -/
def charOf? (n : Nat) : Option Char :=
  if n < 0xD800 ∨ (0xDFFF < n ∧ n < 0x110000) then some (Char.ofNat n) else none

/-- The number that hexadecimal digits write. -/
def hexNumber? (ds : List Char) : Option Nat :=
  ds.foldlM (fun n d => (Json.Literal.hexValue? d).map (n * 16 + ·)) 0

/-- The character of a one-letter escape. -/
def shortEscape? (c : Char) : Option Char :=
  match c with
  | 'b' => some '\x08'
  | 't' => some '\t'
  | 'n' => some '\n'
  | 'f' => some '\x0c'
  | 'r' => some '\r'
  | 'e' => some '\x1b'
  | '"' => some '"'
  | '\\' => some '\\'
  | _ => none

/-- Whether a character may stand for itself in a basic string. -/
def isBasicChar (c : Char) : Bool :=
  c = '\t' || (0x20 ≤ c.toNat && c ≠ '"' && c ≠ '\\' && c.toNat ≠ 0x7F)

/-- Whether a character may stand in a literal string. -/
def isLiteralChar (c : Char) : Bool :=
  c = '\t' || (0x20 ≤ c.toNat && c ≠ '\'' && c.toNat ≠ 0x7F)

/-- Puts a character, if there is one, before a text that is still to be read. -/
def prepend (c : Option Char) (rest : Option (List Char × List Char)) :
    Option (List Char × List Char) :=
  match c, rest with
  | some c, some (text, after) => some (c :: text, after)
  | _, _ => none

/-! ## One line -/

/-- The text of a basic string. -/
def basic? : List Char → Option (List Char × List Char)
  | [] => none
  | '"' :: rest => some ([], rest)
  | '\\' :: 'x' :: a :: b :: rest => prepend ((hexNumber? [a, b]).bind charOf?) (basic? rest)
  | '\\' :: 'u' :: a :: b :: c :: d :: rest =>
    prepend ((hexNumber? [a, b, c, d]).bind charOf?) (basic? rest)
  | '\\' :: 'U' :: a :: b :: c :: d :: e :: f :: g :: h :: rest =>
    prepend ((hexNumber? [a, b, c, d, e, f, g, h]).bind charOf?) (basic? rest)
  | '\\' :: e :: rest => prepend (shortEscape? e) (basic? rest)
  | c :: rest => prepend (if isBasicChar c then some c else none) (basic? rest)

/-- The text of a literal string. -/
def literal? : List Char → Option (List Char × List Char)
  | [] => none
  | '\'' :: rest => some ([], rest)
  | c :: rest => prepend (if isLiteralChar c then some c else none) (literal? rest)

/-! ## Several lines -/

/-- Where the reader of a basic string of several lines stands: in the text, or after a backslash
    that joins lines, before or after the line end that it needs. -/
inductive Joining where
  | no
  | beforeLineEnd
  | afterLineEnd
deriving DecidableEq, Repr

/-- The text of a basic string of several lines.  Up to two quotes before the closing three belong
    to the text. -/
def multilineBasic? : Joining → List Char → Option (List Char × List Char)
  | _, [] => none
  | .beforeLineEnd, c :: rest =>
    match c, rest with
    | '\n', rest => multilineBasic? .afterLineEnd rest
    | '\r', '\n' :: rest => multilineBasic? .afterLineEnd rest
    | c, rest => if c = ' ' ∨ c = '\t' then multilineBasic? .beforeLineEnd rest else none
  | .afterLineEnd, ' ' :: rest => multilineBasic? .afterLineEnd rest
  | .afterLineEnd, '\t' :: rest => multilineBasic? .afterLineEnd rest
  | .afterLineEnd, '\n' :: rest => multilineBasic? .afterLineEnd rest
  | .afterLineEnd, '\r' :: '\n' :: rest => multilineBasic? .afterLineEnd rest
  | _, '"' :: '"' :: '"' :: '"' :: '"' :: rest => some (['"', '"'], rest)
  | _, '"' :: '"' :: '"' :: '"' :: rest => some (['"'], rest)
  | _, '"' :: '"' :: '"' :: rest => some ([], rest)
  | _, '"' :: rest => prepend (some '"') (multilineBasic? .no rest)
  | _, '\\' :: 'x' :: a :: b :: rest =>
    prepend ((hexNumber? [a, b]).bind charOf?) (multilineBasic? .no rest)
  | _, '\\' :: 'u' :: a :: b :: c :: d :: rest =>
    prepend ((hexNumber? [a, b, c, d]).bind charOf?) (multilineBasic? .no rest)
  | _, '\\' :: 'U' :: a :: b :: c :: d :: e :: f :: g :: h :: rest =>
    prepend ((hexNumber? [a, b, c, d, e, f, g, h]).bind charOf?) (multilineBasic? .no rest)
  | _, '\\' :: '\n' :: rest => multilineBasic? .afterLineEnd rest
  | _, '\\' :: '\r' :: '\n' :: rest => multilineBasic? .afterLineEnd rest
  | _, '\\' :: ' ' :: rest => multilineBasic? .beforeLineEnd rest
  | _, '\\' :: '\t' :: rest => multilineBasic? .beforeLineEnd rest
  | _, '\\' :: e :: rest => prepend (shortEscape? e) (multilineBasic? .no rest)
  | _, '\r' :: '\n' :: rest =>
    prepend (some '\r') (prepend (some '\n') (multilineBasic? .no rest))
  | _, c :: rest =>
    prepend (if c = '\n' ∨ isBasicChar c then some c else none) (multilineBasic? .no rest)

/-- The text of a literal string of several lines.  Up to two quotes before the closing three belong
    to the text. -/
def multilineLiteral? : List Char → Option (List Char × List Char)
  | [] => none
  | '\'' :: '\'' :: '\'' :: '\'' :: '\'' :: rest => some (['\'', '\''], rest)
  | '\'' :: '\'' :: '\'' :: '\'' :: rest => some (['\''], rest)
  | '\'' :: '\'' :: '\'' :: rest => some ([], rest)
  | '\r' :: '\n' :: rest => prepend (some '\r') (prepend (some '\n') (multilineLiteral? rest))
  | c :: rest =>
    prepend (if c = '\n' ∨ c = '\'' ∨ isLiteralChar c then some c else none)
      (multilineLiteral? rest)

/-- Drops the line end right after the opening quotes. -/
def dropLineEnd : List Char → List Char
  | '\n' :: rest => rest
  | '\r' :: '\n' :: rest => rest
  | cs => cs

/-! ## All forms -/

/-- The text of the string of one line at the front. -/
def singleLine? : List Char → Option (List Char × List Char)
  | '"' :: rest => basic? rest
  | '\'' :: rest => literal? rest
  | _ => none

/-- The text of the string at the front. -/
def quoted? : List Char → Option (List Char × List Char)
  | '"' :: '"' :: '"' :: rest => multilineBasic? .no (dropLineEnd rest)
  | '\'' :: '\'' :: '\'' :: rest => multilineLiteral? (dropLineEnd rest)
  | cs => singleLine? cs

/-! ## Writing -/

/-- One character of a basic string: quotes, backslashes and control characters are escaped. -/
def encodeChar (c : Char) : List Char :=
  match c with
  | '"' => ['\\', '"']
  | '\\' => ['\\', '\\']
  | c =>
    if isBasicChar c then [c]
    else ['\\', 'u', '0', '0', Json.Literal.hexDigit (c.toNat / 16), Json.Literal.hexDigit c.toNat]

/-- A text as a basic string of one line. -/
def write (text : String) : List Char := '"' :: text.toList.flatMap encodeChar ++ ['"']

end TestHarness.Toml.Quoted
