import TestHarness.Text.Unprintable

/-!
# Quoted text

A text shown for debugging stands between double quotes.  Quotes, backslashes and the common control
characters have short escapes; every other character that cannot be shown is written as its code
point in hexadecimal.
-/

namespace TestHarness.Quoted

/-- The digits of a number in base 16, lower case. -/
def hexDigits (n : Nat) : List Char := Nat.toDigits 16 n

/-- One character as it is shown. -/
def char (c : Char) : List Char :=
  match c with
  | '"' => ['\\', '"']
  | '\\' => ['\\', '\\']
  | '\n' => ['\\', 'n']
  | '\r' => ['\\', 'r']
  | '\t' => ['\\', 't']
  | '\x00' => ['\\', '0']
  | c =>
    if Unprintable.isUnprintable c then ['\\', 'u', '\x7b'] ++ hexDigits c.toNat ++ ['\x7d']
    else [c]

/-- A text between double quotes. -/
def text (s : String) : String := String.ofList ('"' :: s.toList.flatMap char ++ ['"'])

end TestHarness.Quoted
