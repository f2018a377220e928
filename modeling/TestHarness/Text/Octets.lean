import TestHarness.Text.Utf8

/-!
# Octets as characters

Command languages are read one octet at a time, and their rules speak of characters.  Here each
octet is written as the character with its number, so that every string of octets is a text, whether
it is well-formed or not.
-/

namespace TestHarness

/-- A string of octets, each written as the character with its number. -/
abbrev Octets := List Char

namespace Octets

/-- The octets of a byte string. -/
def ofBytes (bs : Bytes) : Octets := bs.map fun b => Char.ofNat b.toNat

/-- The byte string of octets. -/
def toBytes (cs : Octets) : Bytes := cs.map fun c => UInt8.ofNat c.toNat

/-- The octets of a text. -/
def ofString (text : String) : Octets := ofBytes (Utf8.encode text)

/-- The decimal digits of a number. -/
def ofNat (n : Nat) : Octets := (toString n).toList

/-- The decimal digits of a number, after a minus if it is negative. -/
def ofInt (n : Int) : Octets := (toString n).toList

/-- The number that decimal digits write; none if there are no digits or other characters. -/
def natural? (cs : Octets) : Option Nat :=
  if cs.isEmpty ∨ !cs.all Char.isDigit then none
  else some (cs.foldl (fun n c => n * 10 + (c.toNat - 0x30)) 0)

/-- The number that decimal digits write, after a sign or none. -/
def integer? : Octets → Option Int
  | '-' :: cs => (natural? cs).map fun n => -(n : Int)
  | '+' :: cs => (natural? cs).map Int.ofNat
  | cs => (natural? cs).map Int.ofNat

/-- The octets before the first `stop`, and those after it. -/
def cut? (stop : Char) : Octets → Option (Octets × Octets)
  | [] => none
  | c :: rest =>
    if c = stop then some ([], rest)
    else (cut? stop rest).map fun (before, after) => (c :: before, after)

/-- Splits octets at each `stop`, keeping empty parts. -/
def split (stop : Char) : Octets → List Octets
  | [] => [[]]
  | c :: rest =>
    if c = stop then [] :: split stop rest
    else match split stop rest with
      | [] => [[c]]
      | part :: parts => (c :: part) :: parts

/-- Whether one string stands before another in the order of their octets, or is the same. -/
def upTo : Octets → Octets → Bool
  | [], _ => true
  | _ :: _, [] => false
  | a :: as, b :: bs => if a = b then upTo as bs else a < b

/-- The strings with `between` between each two of them. -/
def join (between : Octets) (parts : List Octets) : Octets := List.intercalate between parts

end Octets

end TestHarness
