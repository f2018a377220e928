/-!
# UTF-8: octets read as characters

A string of octets is read from left to right by a machine that sits either between two characters
or inside one.  Each character that ends is reported, and so is each maximal run of octets that
starts a character and cannot be finished (an *ill-formed run*).  Three readers share this one scan:

* `decode?` accepts well-formed strings only,
* `decodeLossy` writes U+FFFD for each ill-formed run,
* `wellFormed` tells the two apart.

`encode` is the way back.

## Contents
* the machine: `State`, `State.start`, `State.step`, `State.finish`
* the scan of a whole string: `scan`
* the readers and the writer
-/

namespace TestHarness

/-- A string of octets: a file's content, a stream, a command-line argument. -/
abbrev Bytes := List UInt8

namespace Utf8

/-! ## The machine -/

/-- Where the reader stands: between two characters, or inside one whose bits so far are `code`,
    whose next octet must lie in `low .. high`, and which needs `after` further octets after it. -/
inductive State where
  | between
  | inside (code : Nat) (after : Nat) (low high : UInt8)
deriving DecidableEq, Repr

/-- One report of the scan: a character, or `none` for an ill-formed run. -/
abbrev Report := Option Char

/-- **First octet.** The range of the second octet excludes overlong forms (`E0`, `F0`), surrogates
    (`ED`) and code points above U+10FFFF (`F4`). -/
def begin (b : UInt8) : List Report × State :=
  if b < 0x80 then ([some (Char.ofNat b.toNat)], .between)
  else if b < 0xC2 then ([none], .between)
  else if b < 0xE0 then ([], .inside (b.toNat - 0xC0) 0 0x80 0xBF)
  else if b = 0xE0 then ([], .inside 0 1 0xA0 0xBF)
  else if b = 0xED then ([], .inside 0xD 1 0x80 0x9F)
  else if b < 0xF0 then ([], .inside (b.toNat - 0xE0) 1 0x80 0xBF)
  else if b = 0xF0 then ([], .inside 0 2 0x90 0xBF)
  else if b < 0xF4 then ([], .inside (b.toNat - 0xF0) 2 0x80 0xBF)
  else if b = 0xF4 then ([], .inside 4 2 0x80 0x8F)
  else ([none], .between)

/-- **One octet.** An octet that cannot continue the open character ends it as ill-formed and is
    itself read by `begin`. -/
def State.step : State → UInt8 → List Report × State
  | .between, b => begin b
  | .inside code after low high, b =>
    if low ≤ b ∧ b ≤ high then
      let code := code * 64 + (b.toNat - 0x80)
      match after with
      | 0 => ([some (Char.ofNat code)], .between)
      | n + 1 => ([], .inside code n 0x80 0xBF)
    else
      let (reports, next) := begin b
      (none :: reports, next)

/-- **End of the octets.** An open character, `inside`, is ill-formed. -/
def State.finish : State → List Report
  | .between => []
  | .inside .. => [none]

/-! ## The scan -/

/-- All reports on `bs`, read from state `s`. -/
def State.scan (s : State) : Bytes → List Report
  | [] => s.finish
  | b :: bs => (s.step b).1 ++ (s.step b).2.scan bs

/-- The characters and ill-formed runs of a string of octets, in order, read from `between`. -/
def scan (bs : Bytes) : List Report := State.between.scan bs

/-! ## Readers and writer -/

/-- The character that stands for an ill-formed run, U+FFFD. -/
def replacement : Char := '\uFFFD'

/-- Whether the octets are the encoding of some text: `scan` reports no ill-formed run. -/
def wellFormed (bs : Bytes) : Bool := (scan bs).all Option.isSome

/-- The text with each ill-formed run written as `replacement`. -/
def decodeLossy (bs : Bytes) : String := String.ofList ((scan bs).map (·.getD replacement))

/-- The text that the octets encode, if they are `wellFormed`. -/
def decode? (bs : Bytes) : Option String :=
  if wellFormed bs then some (decodeLossy bs) else none

/-- The octets of a text, those of each character by `utf8EncodeChar`. -/
def encode (text : String) : Bytes := text.toList.flatMap String.utf8EncodeChar

end Utf8

end TestHarness
