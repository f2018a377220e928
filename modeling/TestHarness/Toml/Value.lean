import TestHarness.Decimal.Binary64

/-!
# TOML values

What a TOML document holds.  Integers have any size and floating-point numbers are kept as they are
written: what a number has to fit into is decided where it is used.
-/

namespace TestHarness.Toml

/-- A floating-point number as it is written. -/
inductive Float where
  | notANumber
  | infinite (negative : Bool)
  | decimal (negative : Bool) (mantissa : Nat) (power : Int)
deriving DecidableEq, Repr

/-- The text of the nearest binary64 number; none beyond the largest one. -/
def Float.text? : Float → Option String
  | .notANumber => some "NaN"
  | .infinite negative => some (if negative then "-inf" else "inf")
  | .decimal negative mantissa power =>
    (Decimal.Binary64.nearest? mantissa power).map fun b =>
      (if negative then "-" else "") ++ b.text

/-- A TOML value.  Keys of a table are distinct. -/
inductive Value where
  | string (text : String)
  | integer (n : Int)
  | float (x : Float)
  | boolean (b : Bool)
  | datetime
  | array (items : List Value)
  | table (entries : List (String × Value))
deriving Repr, Inhabited

end TestHarness.Toml
