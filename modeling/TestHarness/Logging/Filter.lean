import TestHarness.Text.Unprintable
import TestHarness.Text.Utf8

/-!
# Log filters

A filter is a list of directives with commas between them.  A directive enables a level for a
target, for a span, or for everything:

    level    target    target=level    target[span]=level    target[span\{field=value\}]=level

A level is a name, in any case, or a digit from 0 to 5.  A target without a level is enabled
completely, and so is a directive whose level is left empty.

## Contents
* `Level`
* `Directive`, and `Directive.ofText?`, which reads a directive one character at a time
* `Filter`, its most verbose level, and the filter that a harness installs
-/

namespace TestHarness.Logging

/-! ## Levels -/

/-- How much is logged. -/
inductive Level where
  | off
  | error
  | warn
  | info
  | debug
  | trace
deriving DecidableEq, Repr, Inhabited

namespace Level

/-- Every level, from the least verbose to the most verbose one. -/
def all : List Level := [off, error, warn, info, debug, trace]

/-- The level's name. -/
def name : Level → String
  | off => "off"
  | error => "error"
  | warn => "warn"
  | info => "info"
  | debug => "debug"
  | trace => "trace"

/-- The level's number, which grows with verbosity. -/
def rank : Level → Nat
  | off => 0
  | error => 1
  | warn => 2
  | info => 3
  | debug => 4
  | trace => 5

/-- The more verbose of two levels. -/
def max (a b : Level) : Level := if a.rank < b.rank then b else a

/-- The number that decimal digits write; a plus may stand in front. -/
def number? (cs : List Char) : Option Nat :=
  let digits := match cs with
    | '+' :: rest => rest
    | cs => cs
  if digits.isEmpty || !digits.all Char.isDigit then none
  else some (digits.foldl (fun n c => n * 10 + (c.toNat - 0x30)) 0)

/-- The level that a name or number writes. -/
def ofText? (cs : List Char) : Option Level :=
  match (number? cs).bind fun n => all.find? (·.rank == n) with
  | some level => some level
  | none =>
    if cs.isEmpty then some error
    else all.find? fun level => level.name.toList == cs.map Char.toLower

end Level

/-! ## Directives -/

/-- What one directive enables. -/
structure Directive where
  level : Level
  /-- Whether the directive looks at the value of a field. -/
  matchesValue : Bool := false
deriving DecidableEq, Repr

namespace Directive

/-- Where the reader of a directive stands.  Positions count characters. -/
inductive Reader where
  | start
  | levelOrTarget (first : Nat)
  | span
  | field (first : Nat)
  | fields
  | target
  | level (first : Nat)

/-- The blanks that may stand around a directive. -/
def isBlank (c : Char) : Bool :=
  (9 ≤ c.toNat && c.toNat ≤ 13) || c = ' ' || c.toNat = 0x85 || c.toNat = 0xA0 ||
    c.toNat = 0x1680 || (0x2000 ≤ c.toNat && c.toNat ≤ 0x200A) || c.toNat = 0x2028 ||
    c.toNat = 0x2029 || c.toNat = 0x202F || c.toNat = 0x205F || c.toNat = 0x3000

/-- The characters without the blanks at both ends. -/
def trim (cs : List Char) : List Char :=
  ((cs.dropWhile isBlank).reverse.dropWhile isBlank).reverse

/-- Whether a character may open a directive that has a target or a level. -/
def mayOpen (c : Char) : Bool :=
  c.isAlphanum || c = '-' || c = ':' || c = '_' ||
    (0x80 ≤ c.toNat && !Unprintable.isUnprintable c)

/-- The state after the character at a position, and whether a field with a value ends there.
    `cut a b` is the text between two positions. -/
def Reader.step (cut : Nat → Nat → List Char) (i : Nat) (c : Char) :
    Reader → Option (Reader × Bool)
  | .start =>
    if c = '[' then some (.span, false)
    else if mayOpen c then some (.levelOrTarget i, false)
    else none
  | .levelOrTarget a =>
    if c = '=' then some (.level (i + 1), false)
    else if c = '[' then some (.span, false)
    else some (.levelOrTarget a, false)
  | .span =>
    if c = ']' then some (.target, false)
    else if c = '\x7b' then some (.field (i + 1), false)
    else some (.span, false)
  | .field a =>
    if c = '\x7d' then
      if (cut a i).isEmpty then none else some (.fields, (cut a i).contains '=')
    else some (.field a, false)
  | .fields => if c = ']' then some (.target, false) else none
  | .target => if c = '=' then some (.level (i + 1), false) else none
  | .level a => some (.level a, false)

/-- Reads characters from position `i` on. -/
def Reader.read (cut : Nat → Nat → List Char) (r : Reader) (i : Nat) (matchesValue : Bool) :
    List Char → Option (Reader × Bool)
  | [] => some (r, matchesValue)
  | c :: rest =>
    match r.step cut i c with
    | none => none
    | some (r, found) => r.read cut (i + 1) (matchesValue || found) rest

/-- The level at the end of a directive.  An empty one enables everything. -/
def finalLevel? (cs : List Char) : Option Level :=
  if cs.isEmpty then some .trace else Level.ofText? cs

/-- The directive that characters write.  Positions are counted without the blanks around the
    directive, and texts are cut out of it with them. -/
def ofText? (cs : List Char) : Option Directive :=
  let cut (a b : Nat) := (cs.drop a).take (b - a)
  match Reader.start.read cut 0 false (trim cs) with
  | some (.levelOrTarget a, matchesValue) =>
    some { level := (finalLevel? (cs.drop a)).getD .trace, matchesValue }
  | some (.level a, matchesValue) =>
    (finalLevel? (cs.drop a)).map fun level => { level, matchesValue }
  | some (.target, matchesValue) => some { level := .trace, matchesValue }
  | _ => none

end Directive

/-! ## Filters -/

/-- The directives of a filter. -/
structure Filter where
  directives : List Directive
deriving DecidableEq, Repr

namespace Filter

/-- Splits characters at commas. -/
def splitCommas : List Char → List (List Char)
  | [] => [[]]
  | ',' :: rest => [] :: splitCommas rest
  | c :: rest =>
    match splitCommas rest with
    | [] => [[c]]
    | first :: more => (c :: first) :: more

/-- The filter that a text writes.  Without any directive it lets errors through. -/
def ofText? (text : String) : Option Filter :=
  (((splitCommas text.toList).filter (!·.isEmpty)).mapM Directive.ofText?).map fun directives =>
    ⟨if directives.isEmpty then [{ level := .error }] else directives⟩

/-- The most verbose level that some directive enables.  A directive that looks at values enables
    all spans, since their values are not known beforehand. -/
def maxLevel (f : Filter) : Level :=
  f.directives.foldl (fun level d => level.max (if d.matchesValue then .trace else d.level)) .off

/-- The filter without any configuration. -/
def builtIn (verbose : Bool) : Filter :=
  ⟨if verbose then [{ level := .debug }, { level := .info }]
   else [{ level := .info }, { level := .warn }]⟩

/-- The filter that a harness uses: the configured one if it can be read, else the built-in one. -/
def chosen (verbose : Bool) (configured : Option Bytes) : Filter :=
  ((configured.bind Utf8.decode?).bind ofText?).getD (builtIn verbose)

end Filter

/-! ## Installing -/

/-- Installs a filter unless one is installed already: the filter that holds afterwards, and whether
    this one was installed. -/
def install (present : Option Filter) (f : Filter) : Filter × Bool :=
  match present with
  | none => (f, true)
  | some g => (g, false)

end TestHarness.Logging
