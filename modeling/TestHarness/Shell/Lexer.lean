import TestHarness.Shell.Syntax

/-!
# Reading words

Cuts a script into words and operators.  Quotes and parameters are read here; what stands inside
`$( )` and `$(( ))` is kept as it is written.

A reader that calls itself takes a number that bounds its depth; the length of the script is always
enough, since every call consumes an octet.

## Contents
* `closing`, which finds the end of a bracket
* `readDollar`, `readDouble`, `readWord`
* documents that stand in the script: `readDocument`
* `lexemes`
-/

namespace TestHarness.Shell

/-! ## Characters -/

/-- Whether a character separates words. -/
def isBlank (c : Char) : Bool := c = ' ' || c = '\t'

/-- Whether a character ends a word. -/
def endsWord (c : Char) : Bool := isBlank c || "\n&|;()<>".toList.contains c

/-- Whether a character starts a name. -/
def startsName (c : Char) : Bool := c.isAlpha || c = '_'

/-- Whether a character continues a name. -/
def continuesName (c : Char) : Bool := c.isAlphanum || c = '_'

/-- Whether octets are the name of a variable. -/
def isName : Octets → Bool
  | [] => false
  | c :: rest => startsName c && rest.all continuesName

/-- Whether a character alone is a parameter. -/
def isSpecial (c : Char) : Bool := "?$#@*!-".toList.contains c || c.isDigit

/-! ## Brackets -/

/-- The octets up to the bracket that closes `depth` open ones and this one, and those after it.
    Brackets inside quotes do not count. -/
def closing (opener closer : Char) (depth : Nat) (quote : Option Char) (escaped : Bool) :
    Octets → Option (Octets × Octets)
  | [] => none
  | c :: rest =>
    let keep (found : Option (Octets × Octets)) := found.map fun (inner, after) => (c :: inner, after)
    if escaped then keep (closing opener closer depth quote false rest)
    else if c = '\\' ∧ quote ≠ some '\'' then keep (closing opener closer depth quote true rest)
    else match quote with
      | some q =>
        keep (closing opener closer depth (if c = q then none else quote) false rest)
      | none =>
        if c = '\'' ∨ c = '"' then keep (closing opener closer depth (some c) false rest)
        else if c = opener then keep (closing opener closer (depth + 1) none false rest)
        else if c = closer then
          match depth with
          | 0 => some ([], rest)
          | n + 1 => keep (closing opener closer n none false rest)
        else keep (closing opener closer depth none false rest)

/-- The script between backquotes, with the quoting of backslashes undone, and what follows. -/
def backquoted (escaped : Bool) : Octets → Option (Octets × Octets)
  | [] => none
  | c :: rest =>
    if escaped then
      (backquoted false rest).map fun (inner, after) =>
        (if c = '`' ∨ c = '\\' ∨ c = '$' then (c :: inner, after) else ('\\' :: c :: inner, after))
    else if c = '\\' then backquoted true rest
    else if c = '`' then some ([], rest)
    else (backquoted false rest).map fun (inner, after) => (c :: inner, after)

/-! ## Parameters -/

/-- The modifier that stands after a parameter's name in braces. -/
def readModifier : Octets → Option Modifier
  | [] => some .none
  | ':' :: '-' :: word => some (.default true word)
  | ':' :: '=' :: word => some (.assign true word)
  | ':' :: '?' :: word => some (.require true word)
  | ':' :: '+' :: word => some (.instead true word)
  | '-' :: word => some (.default false word)
  | '=' :: word => some (.assign false word)
  | '?' :: word => some (.require false word)
  | '+' :: word => some (.instead false word)
  | '%' :: '%' :: pattern => some (.remove false true pattern)
  | '%' :: pattern => some (.remove false false pattern)
  | '#' :: '#' :: pattern => some (.remove true true pattern)
  | '#' :: pattern => some (.remove true false pattern)
  | _ => none

/-- A parameter's name at the front, and what follows. -/
def readName : Octets → Option (Octets × Octets)
  | [] => none
  | c :: rest =>
    if startsName c then some (c :: rest.takeWhile continuesName, rest.dropWhile continuesName)
    else if c.isDigit then some (c :: rest.takeWhile Char.isDigit, rest.dropWhile Char.isDigit)
    else if isSpecial c then some ([c], rest)
    else none

/-- The piece that octets in braces write. -/
def readBraced (quoted : Bool) (inner : Octets) : Piece :=
  let plain := match readName inner with
    | none => Piece.bad
    | some (name, rest) =>
      match readModifier rest with
      | none => .bad
      | some modifier => .parameter name modifier quoted
  match inner with
  | '#' :: rest =>
    match readName rest with
    | some (name, []) => .parameter name .length quoted
    | _ => plain
  | _ => plain

/-- What a reader of words gives: what it has read and what follows, or a complaint. -/
abbrev Cutting (α : Type) := Except String (α × Octets)

/-- The complaint about a quotation that does not end. -/
def unterminated : String := "Unterminated quoted string"

/-- What has been found, or a complaint. -/
def orComplain {α : Type} (complaint : String) : Option α → Except String α
  | some a => .ok a
  | none => .error complaint

/-- The piece after a dollar sign, and what follows. -/
def readDollar (quoted : Bool) (cs : Octets) : Cutting Piece :=
  match cs with
  | '(' :: '(' :: rest =>
    (orComplain "Missing '))'" (closing '(' ')' 1 none false rest)).map fun (inner, after) =>
      if inner.getLast? = some ')' then (.arithmetic inner.dropLast quoted, after)
      else (.substitution ('(' :: inner) quoted, after)
  | '(' :: rest =>
    (orComplain "end of file unexpected (expecting \")\")" (closing '(' ')' 0 none false rest)).map
      fun (inner, after) => (.substitution inner quoted, after)
  | '{' :: rest =>
    (orComplain "Missing '\x7d'" (closing '{' '}' 0 none false rest)).map
      fun (inner, after) => (readBraced quoted inner, after)
  | c :: rest =>
    if startsName c then
      .ok (.parameter (c :: rest.takeWhile continuesName) .none quoted,
        rest.dropWhile continuesName)
    else if isSpecial c then .ok (.parameter [c] .none quoted, rest)
    else .ok (.literal ['$'] quoted, cs)
  | [] => .ok (.literal ['$'] quoted, cs)

/-- The substitution after a backquote, and what follows. -/
def readBackquoted (quoted : Bool) (cs : Octets) : Cutting Piece :=
  (orComplain "EOF in backquote substitution" (backquoted false cs)).map
    fun (source, after) => (.substitution source quoted, after)

/-! ## Words -/

/-- Adds a piece in front; texts of one kind become one piece. -/
def addPiece (p : Piece) (w : Word) : Word :=
  match p, w with
  | .literal text quoted, .literal more quoted' :: rest =>
    if quoted = quoted' then .literal (text ++ more) quoted :: rest else p :: w
  | _, _ => p :: w

/-- The pieces up to the closing double quote, and what follows it.  An `unquoted` text has no
    closing quote and ends with the octets. -/
def readDouble (unquoted : Bool) : Nat → Octets → Cutting Word
  | 0, _ => .error unterminated
  | n + 1, cs =>
    let add (p : Piece) (rest : Octets) :=
      (readDouble unquoted n rest).map fun (w, after) => (addPiece p w, after)
    match cs with
    | [] => if unquoted then .ok ([], []) else .error unterminated
    | '\\' :: '\n' :: rest => readDouble unquoted n rest
    | '\\' :: c :: rest =>
      if "$`\\".toList.contains c || (c = '"' && !unquoted) then add (.literal [c] true) rest
      else add (.literal ['\\', c] true) rest
    | '$' :: rest =>
      match readDollar true rest with
      | .error e => .error e
      | .ok (p, rest) => add p rest
    | '`' :: rest =>
      match readBackquoted true rest with
      | .error e => .error e
      | .ok (p, rest) => add p rest
    | c :: rest => if c = '"' ∧ !unquoted then .ok ([], rest) else add (.literal [c] true) rest

/-- The pieces of a word, and what follows it.  A `whole` word ends with the octets only. -/
def readWord (whole : Bool) : Nat → Octets → Cutting Word
  | 0, _ => .error unterminated
  | n + 1, cs =>
    let add (p : Piece) (rest : Octets) :=
      (readWord whole n rest).map fun (w, after) => (addPiece p w, after)
    match cs with
    | [] => .ok ([], [])
    | '\\' :: '\n' :: rest => readWord whole n rest
    | '\\' :: c :: rest => add (.literal [c] true) rest
    | '\'' :: rest =>
      match Octets.cut? '\'' rest with
      | none => .error unterminated
      | some (text, rest) => add (.literal text true) rest
    | '"' :: rest =>
      match readDouble false n rest with
      | .error e => .error e
      | .ok ([], rest) => add (.literal [] true) rest
      | .ok (pieces, rest) =>
        (readWord whole n rest).map fun (w, after) => (pieces.foldr addPiece w, after)
    | '$' :: rest =>
      match readDollar false rest with
      | .error e => .error e
      | .ok (p, rest) => add p rest
    | '`' :: rest =>
      match readBackquoted false rest with
      | .error e => .error e
      | .ok (p, rest) => add p rest
    | c :: rest => if !whole && endsWord c then .ok ([], cs) else add (.literal [c] false) rest

/-- The word that all of some octets write. -/
def wholeWord (cs : Octets) : Word :=
  match readWord true (cs.length + 1) cs with
  | .ok (w, _) => w
  | .error _ => [.literal cs true]

/-- The word that all of some octets write between double quotes. -/
def quotedWord (cs : Octets) : Word :=
  match readDouble true (cs.length + 1) cs with
  | .ok (w, _) => w
  | .error _ => [.literal cs true]

/-- The text of a word without quotes and parameters. -/
def bare? : Word → Option Octets
  | [.literal text false] => some text
  | _ => none

/-! ## Lexemes -/

/-- One unit of a script. -/
inductive Token where
  | word (w : Word)
  /-- The descriptor of the redirection that follows. -/
  | number (n : Nat)
  | operator (text : Octets)
  /-- The text of a document that stands in the script. -/
  | document (w : Word)
  /-- The rest of the script cannot be cut. -/
  | failure (complaint : String)
deriving DecidableEq, Repr, Inhabited

/-- A token with the line on which it starts. -/
structure Lexeme where
  line : Nat
  token : Token
deriving Repr, Inhabited

/-- The operators, each before its own beginnings. -/
def operators : List Octets :=
  ["&&", "||", ";;", "<<-", "<<", "<&", "<>", ">&", ">>", ">|", ";", "&", "|", "(", ")", "<", ">", "\n"].map
    String.toList

/-- The number of lines that end in octets. -/
def countLines (cs : Octets) : Nat := cs.count '\n'

/-- The lines up to one that is the delimiter, and what follows it. -/
def documentLines (strip : Bool) (delimiter : Octets) : List Octets → List Octets × List Octets
  | [] => ([], [])
  | line :: rest =>
    let line := if strip then line.dropWhile (· = '\t') else line
    if line = delimiter then ([], rest)
    else let (lines, after) := documentLines strip delimiter rest; (line :: lines, after)

/-- The document that starts behind the present line: its text, and the octets without it. -/
def readDocument (strip : Bool) (delimiter cs : Octets) : Octets × Octets :=
  match Octets.cut? '\n' cs with
  | none => ([], cs)
  | some (present, below) =>
    let (lines, after) := documentLines strip delimiter (Octets.split '\n' below)
    let after := Octets.join ['\n'] after
    (lines.flatMap (· ++ ['\n']), present ++ '\n' :: after)

/-- The text of a word without its quotes, and whether it has any. -/
def unquote (w : Word) : Octets × Bool :=
  (w.flatMap fun p => match p with
      | .literal text _ => text
      | _ => [],
    w.any fun p => match p with
      | .literal _ quoted => quoted
      | _ => false)

/-- The lexemes of a script that starts on `line`. -/
def lexemes : Nat → Nat → Octets → List Lexeme
  | 0, _, _ => []
  | n + 1, line, cs =>
    match cs with
    | [] => []
    | '\\' :: '\n' :: rest => lexemes n (line + 1) rest
    | '#' :: rest => lexemes n line (rest.dropWhile (· ≠ '\n'))
    | c :: rest =>
      if isBlank c then lexemes n line rest
      else match operators.find? (·.isPrefixOf cs) with
        | some op =>
          let after := cs.drop op.length
          if op = "<<".toList ∨ op = "<<-".toList then
            match readWord false (cs.length + 1) (after.dropWhile isBlank) with
            | .error e => [⟨line, .failure e⟩]
            | .ok (w, after) =>
              let (delimiter, quoted) := unquote w
              let (text, after) := readDocument (op = "<<-".toList) delimiter after
              let document := if quoted then [.literal text true] else quotedWord text
              ⟨line, .operator "<<".toList⟩ :: ⟨line, .document document⟩ :: lexemes n line after
          else ⟨line, .operator op⟩ :: lexemes n (line + countLines op) after
        | none =>
          match readWord false (cs.length + 1) cs with
          | .error e => [⟨line, .failure e⟩]
          | .ok (w, after) =>
            let next := line + countLines (cs.take (cs.length - after.length))
            let token := match (bare? w).bind Octets.natural?, after.head? with
              | some number, some '<' => Token.number number
              | some number, some '>' => .number number
              | _, _ => .word w
            ⟨line, token⟩ :: lexemes n next after

end TestHarness.Shell
