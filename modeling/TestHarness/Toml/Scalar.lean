import TestHarness.Toml.Value

/-!
# TOML scalars without quotes

Booleans, integers, floating-point numbers, dates and times.  Such a scalar is a run of letters,
digits and `+ - . : _`; a date and a time may have one blank between them.

## Contents
* digits with underscores: `digitsOf?`
* `integer?`, `float?`
* `date?`, `time?`, `datetime?`
* `run`, which takes the characters of a scalar from the front
* `scalar?`
-/

namespace TestHarness.Toml.Scalar

/-! ## Digits -/

/-- The value of a digit in base `base`, letters in either case. -/
def digitValue? (base : Nat) (c : Char) : Option Nat :=
  let value :=
    if '0' ≤ c ∧ c ≤ '9' then c.toNat - 0x30
    else if 'a' ≤ c ∧ c ≤ 'z' then c.toNat - 0x57
    else if 'A' ≤ c ∧ c ≤ 'Z' then c.toNat - 0x37
    else base
  if value < base then some value else none

/-- The digits of a number, without the underscores that may stand between two of them.  `after`
    tells whether a digit has just been read. -/
def digitsFrom? (base : Nat) (after : Bool) : List Char → Option (List Nat)
  | [] => if after then some [] else none
  | '_' :: rest => if after then digitsFrom? base false rest else none
  | c :: rest =>
    match digitValue? base c, digitsFrom? base true rest with
    | some d, some ds => some (d :: ds)
    | _, _ => none

/-- The digits of a number; at least one. -/
def digitsOf? (base : Nat) (cs : List Char) : Option (List Nat) := digitsFrom? base false cs

/-- The number that digits write. -/
def ofDigits (base : Nat) (ds : List Nat) : Nat := ds.foldl (fun n d => n * base + d) 0

/-- Splits off a sign: whether it is `-`, and what follows it. -/
def splitSign : List Char → Bool × List Char
  | '-' :: rest => (true, rest)
  | '+' :: rest => (false, rest)
  | cs => (false, cs)

/-! ## Numbers -/

/-- The decimal digits of an integer part, which has no leading zero. -/
def wholeDigits? (cs : List Char) : Option (List Nat) :=
  match digitsOf? 10 cs with
  | some (0 :: _ :: _) => none
  | ds => ds

/-- An integer.  Only decimal ones have a sign. -/
def integer? : List Char → Option Int
  | '0' :: 'x' :: rest => (digitsOf? 16 rest).map fun ds => (ofDigits 16 ds : Int)
  | '0' :: 'o' :: rest => (digitsOf? 8 rest).map fun ds => (ofDigits 8 ds : Int)
  | '0' :: 'b' :: rest => (digitsOf? 2 rest).map fun ds => (ofDigits 2 ds : Int)
  | cs =>
    let (negative, unsigned) := splitSign cs
    (wholeDigits? unsigned).map fun ds =>
      if negative then -(ofDigits 10 ds : Int) else (ofDigits 10 ds : Int)

/-- What stands before and after the first character that satisfies `p`, without it. -/
def splitAt? (p : Char → Bool) (cs : List Char) : List Char × Option (List Char) :=
  match cs.dropWhile (!p ·) with
  | [] => (cs, none)
  | _ :: after => (cs.takeWhile (!p ·), some after)

/-- The value of an exponent, which may have leading zeros. -/
def exponent? (cs : List Char) : Option Int :=
  let (negative, unsigned) := splitSign cs
  (digitsOf? 10 unsigned).map fun ds =>
    if negative then -(ofDigits 10 ds : Int) else (ofDigits 10 ds : Int)

/-- A number with a fraction, an exponent or both. -/
def decimal? (negative : Bool) (cs : List Char) : Option Float := do
  let (significand, exponent) := splitAt? (fun c => c = 'e' || c = 'E') cs
  let (whole, fraction) := splitAt? (· = '.') significand
  if fraction.isNone && exponent.isNone then none
  let wholeDigits ← wholeDigits? whole
  let fractionDigits ← match fraction with
    | none => some []
    | some cs => digitsOf? 10 cs
  let power ← match exponent with
    | none => some 0
    | some cs => exponent? cs
  return .decimal negative (ofDigits 10 (wholeDigits ++ fractionDigits))
    (power - fractionDigits.length)

/-- A floating-point number. -/
def float? (cs : List Char) : Option Float :=
  let (negative, unsigned) := splitSign cs
  if unsigned = ['i', 'n', 'f'] then some (.infinite negative)
  else if unsigned = ['n', 'a', 'n'] then some .notANumber
  else decimal? negative unsigned

/-! ## Dates and times -/

/-- The number of the decimal digits at the front, `count` of them, and what follows. -/
def fixed? (count : Nat) (cs : List Char) : Option (Nat × List Char) :=
  if (cs.take count).length = count && (cs.take count).all Char.isDigit then
    some (ofDigits 10 ((cs.take count).map fun c => c.toNat - 0x30), cs.drop count)
  else none

/-- What follows a given character at the front. -/
def expect? (c : Char) : List Char → Option (List Char)
  | [] => none
  | d :: rest => if c = d then some rest else none

/-- The days of a month. -/
def daysInMonth (year month : Nat) : Nat :=
  if month = 2 then
    if year % 4 = 0 ∧ (year % 100 ≠ 0 ∨ year % 400 = 0) then 29 else 28
  else if month = 4 ∨ month = 6 ∨ month = 9 ∨ month = 11 then 30
  else 31

/-- What follows a date at the front. -/
def date? (cs : List Char) : Option (List Char) := do
  let (year, cs) ← fixed? 4 cs
  let (month, cs) ← fixed? 2 (← expect? '-' cs)
  let (day, cs) ← fixed? 2 (← expect? '-' cs)
  if 1 ≤ month ∧ month ≤ 12 ∧ 1 ≤ day ∧ day ≤ daysInMonth year month then return cs else none

/-- What follows a fraction of a second, which may be missing. -/
def fraction? : List Char → Option (List Char)
  | '.' :: rest =>
    if (rest.head?.map Char.isDigit).getD false then some (rest.dropWhile Char.isDigit) else none
  | cs => some cs

/-- What follows a time at the front.  Its seconds may be missing. -/
def time? (cs : List Char) : Option (List Char) := do
  let (hour, cs) ← fixed? 2 cs
  let (minute, cs) ← fixed? 2 (← expect? ':' cs)
  if 23 < hour ∨ 59 < minute then none
  match cs with
  | ':' :: cs =>
    let (second, cs) ← fixed? 2 cs
    if 60 < second then none
    fraction? cs
  | cs => return cs

/-- Whether nothing or the offset of a time zone follows. -/
def isOffset (cs : List Char) : Bool :=
  match cs with
  | [] => true
  | ['Z'] => true
  | ['z'] => true
  | sign :: cs =>
    (sign = '+' || sign = '-') &&
      ((do
        let (hour, cs) ← fixed? 2 cs
        let (minute, cs) ← fixed? 2 (← expect? ':' cs)
        return cs.isEmpty && minute ≤ 59 && hour * 60 + minute ≤ 24 * 60).getD false)

/-- Whether the characters are a date, a time, or both. -/
def isDatetime (cs : List Char) : Bool :=
  match date? cs with
  | some [] => true
  | some (c :: rest) =>
    (c = 'T' || c = 't' || c = ' ') && ((time? rest).map isOffset).getD false
  | none => time? cs = some []

/-! ## All scalars -/

/-- Whether a character may stand in a scalar without quotes. -/
def isScalarChar (c : Char) : Bool :=
  c.isAlphanum || c = '+' || c = '-' || c = '.' || c = ':' || c = '_'

/-- The characters of the scalar at the front, and what follows.  The blank between a date and a
    time belongs to the scalar. -/
def run (cs : List Char) : List Char × List Char :=
  let first := cs.takeWhile isScalarChar
  let after := cs.dropWhile isScalarChar
  match after with
  | ' ' :: c :: rest =>
    if date? first = some [] ∧ c.isDigit then
      (first ++ ' ' :: (c :: rest).takeWhile isScalarChar, (c :: rest).dropWhile isScalarChar)
    else (first, after)
  | _ => (first, after)

/-- The value of a scalar. -/
def scalar? (cs : List Char) : Option Value :=
  if cs = ['t', 'r', 'u', 'e'] then some (.boolean true)
  else if cs = ['f', 'a', 'l', 's', 'e'] then some (.boolean false)
  else match integer? cs with
    | some n => some (.integer n)
    | none =>
      match float? cs with
      | some x => some (.float x)
      | none => if isDatetime cs then some .datetime else none

end TestHarness.Toml.Scalar
