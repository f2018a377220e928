/-!
# Removing NULs from text

Reports cannot carry U+0000, nor the four characters `\x00` that some programs print in its place.
`scrub` writes `NULL` for either, in one pass from left to right.  `replaceNul` and
`replaceEscapedNul` are the two halves of that repair.
-/

namespace TestHarness.Scrub

/-- What is written for a NUL: `NULL`. -/
def mark : List Char := ['N', 'U', 'L', 'L']

/-- Writes `NULL` for each U+0000. -/
def replaceNul (cs : List Char) : List Char :=
  cs.flatMap fun c => if c = '\x00' then mark else [c]

/-- Writes `NULL` for each `\x00`. -/
def replaceEscapedNul : List Char → List Char
  | '\\' :: 'x' :: '0' :: '0' :: rest => mark ++ replaceEscapedNul rest
  | c :: rest => c :: replaceEscapedNul rest
  | [] => []

/-- Whether `\x00` occurs. -/
def hasEscapedNul : List Char → Bool
  | [] => false
  | c :: rest => ['\\', 'x', '0', '0'].isPrefixOf (c :: rest) || hasEscapedNul rest

/-- Whether the text has a NUL in either form, U+0000 or `\x00`. -/
def needed (text : String) : Bool :=
  text.toList.contains '\x00' || hasEscapedNul text.toList

/-- The text without NULs: first the characters, by `replaceNul`, then the escapes. -/
def apply (text : String) : String :=
  String.ofList (replaceEscapedNul (replaceNul text.toList))

/-- Both repairs in one pass from left to right: `mark` for each NUL in either form. -/
def scrubChars : List Char → List Char
  | '\\' :: 'x' :: '0' :: '0' :: rest => mark ++ scrubChars rest
  | c :: rest => (if c = '\x00' then mark else [c]) ++ scrubChars rest
  | [] => []

/-- The text with every NUL, in either form, written as `NULL`. -/
def scrub (text : String) : String := String.ofList (scrubChars text.toList)

end TestHarness.Scrub
