/-!
# Blanks and comments of TOML

Lines end with a line feed, before which a carriage return may stand; a carriage return stands
nowhere else.  A comment runs to the end of its line and holds no control character but the tab.
-/

namespace TestHarness.Toml

/-- Whether a character may stand in a comment. -/
def isCommentChar (c : Char) : Bool := c = '\t' || (0x20 ≤ c.toNat && c.toNat ≠ 0x7F)

/-- A blank within a line. -/
def isSpace (c : Char) : Bool := c = ' ' || c = '\t'

/-- What follows the blanks at the front, within the line. -/
def skipSpaces (cs : List Char) : List Char := cs.dropWhile isSpace

/-- What follows blanks, line ends and comments at the front; none if a character stands there that
    may not.  `comment` tells whether the reader stands in a comment. -/
def skipLines (comment : Bool) : List Char → Option (List Char)
  | [] => some []
  | '\n' :: rest => skipLines false rest
  | '\r' :: '\n' :: rest => skipLines false rest
  | c :: rest =>
    if comment then if isCommentChar c then skipLines true rest else none
    else if isSpace c then skipLines false rest
    else if c = '#' then skipLines true rest
    else some (c :: rest)

/-- What follows blanks, line ends and comments at the front. -/
def skipBlank (cs : List Char) : Option (List Char) := skipLines false cs

/-- What follows the comment at the front, up to its line end. -/
def skipComment : List Char → Option (List Char)
  | [] => some []
  | '\n' :: rest => some ('\n' :: rest)
  | '\r' :: '\n' :: rest => some ('\n' :: rest)
  | c :: rest => if isCommentChar c then skipComment rest else none

/-- What follows the line's end, before which blanks and a comment may stand. -/
def endLine? (cs : List Char) : Option (List Char) :=
  let atEnd : List Char → Option (List Char)
    | [] => some []
    | '\n' :: rest => some rest
    | '\r' :: '\n' :: rest => some rest
    | _ => none
  match skipSpaces cs with
  | '#' :: rest => (skipComment rest).bind atEnd
  | rest => atEnd rest

end TestHarness.Toml
