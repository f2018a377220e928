import TestHarness.Text.Octets

/-!
# Patterns of the shell

Patterns with `*`, `?` and `[ ]`, in which a quoted character stands for itself.
-/

namespace TestHarness.Shell

/-- A word after expansion: its characters, each with whether it is quoted. -/
abbrev Field := List (Char × Bool)

/-- The characters of a field. -/
def Field.text (f : Field) : Octets := f.map (·.1)

/-- Characters that are all quoted, or all not. -/
def Field.ofText (quoted : Bool) (text : Octets) : Field := text.map fun c => (c, quoted)

/-- One part of a pattern. -/
inductive Glob where
  /-- Any run of characters. -/
  | run
  /-- Any one character. -/
  | one
  | literal (c : Char)
  /-- One character inside, or outside, some ranges. -/
  | set (outside : Bool) (ranges : List (Char × Char))
deriving DecidableEq, Repr

namespace Glob

/-- The ranges that characters in brackets write. -/
def ranges : Octets → List (Char × Char)
  | a :: '-' :: b :: rest => (a, b) :: ranges rest
  | c :: rest => (c, c) :: ranges rest
  | [] => []

/-- The part that characters in brackets write. -/
def ofBrackets (inner : Octets) : Glob :=
  match inner with
  | '!' :: rest => .set true (ranges rest)
  | _ => .set false (ranges inner)

/-- Splits a field behind an opening bracket at the closing one, which is not the first. -/
def cutBrackets : Field → Option (Field × Field)
  | [] => none
  | first :: rest =>
    let inner := rest.takeWhile (· ≠ (']', false))
    match rest.drop inner.length with
    | [] => none
    | _ :: after => some (first :: inner, after)

/-- The pattern that a field writes.  The first number is at least the field's length. -/
def ofField : Nat → Field → List Glob
  | 0, _ => []
  | _, [] => []
  | n + 1, (c, quoted) :: rest =>
    if quoted then .literal c :: ofField n rest
    else if c = '*' then .run :: ofField n rest
    else if c = '?' then .one :: ofField n rest
    else if c = '[' then
      match cutBrackets rest with
      | some (inner, after) => ofBrackets inner.text :: ofField n after
      | none => .literal c :: ofField n rest
    else .literal c :: ofField n rest

/-- Whether one part that is not a run matches a character. -/
def accepts : Glob → Char → Bool
  | run, _ => true
  | one, _ => true
  | literal d, c => c == d
  | set outside ranges, c => (ranges.any fun (a, b) => a ≤ c && c ≤ b) != outside

/-- Whether a pattern matches all of a text. -/
def accept : List Glob → Octets → Bool
  | [], cs => cs.isEmpty
  | .run :: gs, [] => accept gs []
  | .run :: gs, c :: cs => accept gs (c :: cs) || accept (.run :: gs) cs
  | _ :: _, [] => false
  | g :: gs, c :: cs => g.accepts c && accept gs cs
termination_by gs cs => gs.length + cs.length

end Glob

/-- Whether a field, as a pattern, matches all of a text. -/
def Field.accepts (f : Field) (text : Octets) : Bool :=
  Glob.accept (Glob.ofField f.length f) text

/-- Whether a field can match anything but itself. -/
def Field.isPattern (f : Field) : Bool :=
  f.any fun (c, quoted) => !quoted && (c = '*' || c = '?' || c = '[')

/-- What is left of a text without what a pattern matches at its front or back. -/
def Field.removeFrom (f : Field) (front longest : Bool) (text : Octets) : Octets :=
  let sizes := List.range (text.length + 1)
  let sizes := if longest then sizes.reverse else sizes
  let matched := sizes.find? fun n =>
    f.accepts (if front then text.take n else text.drop (text.length - n))
  match matched with
  | none => text
  | some n => if front then text.drop n else text.take (text.length - n)

end TestHarness.Shell
