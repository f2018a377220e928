import TestHarness.Shell.Lexer

/-!
# Reading commands

Builds the commands of a script from its lexemes.  The readers call each other, and each takes a
number that bounds the depth of these calls; `Script.ofText` gives them more than a script of that
length can need.

## Contents
* `Reading`, and what is said of a lexeme that does not fit
* simple commands: `readRedirection`, `readSimple`
* `readCommand` and its relatives, and `Script.ofText`
-/

namespace TestHarness.Shell

/-! ## Complaints -/

/-- What a reader gives: what it has read and the lexemes after it, or the line and the text of a
    complaint. -/
abbrev Reading (α : Type) := Except (Nat × Octets) (α × List Lexeme)

/-- The words that have a meaning where a command may start. -/
def reservedWords : List Octets :=
  ["!", "\x7b", "\x7d", "case", "do", "done", "elif", "else", "esac", "fi", "for", "if", "in", "then",
    "until", "while"].map String.toList

/-- The operators of redirections. -/
def redirectionOperators : List Octets :=
  ["<", ">", ">|", ">>", "<>", "<&", ">&", "<<"].map String.toList

/-- A lexeme as a complaint names it. -/
def describe : List Lexeme → Octets
  | [] => "end of file".toList
  | l :: _ =>
    match l.token with
    | .operator ['\n'] => "newline".toList
    | .operator op =>
      if redirectionOperators.contains op then "redirection".toList else '"' :: op ++ ['"']
    | .number _ => "redirection".toList
    | .document _ => "redirection".toList
    | .failure complaint => complaint.toList
    | .word w =>
      match bare? w with
      | some text => if reservedWords.contains text then '"' :: text ++ ['"'] else "word".toList
      | none => "word".toList

/-- The complaint about the first lexeme, with what should stand there. -/
def unexpected {α : Type} (line : Nat) (expected : Octets) (ls : List Lexeme) : Reading α :=
  let line := (ls.head?.map Lexeme.line).getD line
  let complaint := match ls.head?.map Lexeme.token with
    | some (.failure complaint) => complaint.toList
    | _ =>
      describe ls ++ " unexpected".toList ++
        (if expected.isEmpty then [] else " (expecting ".toList ++ expected ++ [')'])
  .error (line, complaint)

/-! ## Single lexemes -/

/-- Whether the first lexeme is an operator. -/
def atOperator (op : String) : List Lexeme → Bool
  | ⟨_, .operator text⟩ :: _ => text == op.toList
  | _ => false

/-- The text of the first lexeme if it is a word without quotes and parameters. -/
def headWord? : List Lexeme → Option Octets
  | ⟨_, .word w⟩ :: _ => bare? w
  | _ => none

/-- Whether the first lexeme is a reserved word. -/
def atWord (text : String) (ls : List Lexeme) : Bool := headWord? ls = some text.toList

/-- The lexemes after newlines. -/
def skipNewlines (ls : List Lexeme) : List Lexeme :=
  ls.dropWhile fun l => l.token = .operator ['\n']

/-- Whether a list of commands ends before the first lexeme. -/
def endsList (ls : List Lexeme) : Bool :=
  ls.isEmpty || atOperator ")" ls || atOperator ";;" ls ||
    ["then", "else", "elif", "fi", "do", "done", "esac", "\x7d"].any fun text => atWord text ls

/-- The line of the first lexeme. -/
def lineOf (line : Nat) (ls : List Lexeme) : Nat := (ls.head?.map Lexeme.line).getD line

/-- Reads one reserved word. -/
def expectWord (line : Nat) (text : String) (ls : List Lexeme) : Reading Unit :=
  if atWord text ls then .ok ((), ls.drop 1) else unexpected line ('"' :: text.toList ++ ['"']) ls

/-! ## Simple commands -/

/-- The direction of a redirection operator, and the descriptor that it changes unless another one
    is named. -/
def directionOf (op : Octets) : Option (Direction × Nat) :=
  match String.ofList op with
  | "<" => some (.read, 0)
  | ">" => some (.write, 1)
  | ">|" => some (.write, 1)
  | ">>" => some (.append, 1)
  | "<>" => some (.both, 0)
  | "<&" => some (.copy, 0)
  | ">&" => some (.copy, 1)
  | "<<" => some (.document, 0)
  | _ => none

/-- Reads a redirection, if one stands at the front. -/
def readRedirection (ls : List Lexeme) : Reading (Option Redirection) :=
  let (number, rest) := match ls with
    | ⟨_, .number n⟩ :: rest => (some n, rest)
    | _ => (none, ls)
  match rest with
  | ⟨line, .operator op⟩ :: rest =>
    match directionOf op with
    | none => .ok (none, ls)
    | some (direction, standard) =>
      match rest with
      | ⟨_, .word target⟩ :: rest =>
        .ok (some { descriptor := number.getD standard, direction, target }, rest)
      | ⟨_, .document target⟩ :: rest =>
        .ok (some { descriptor := number.getD standard, direction, target }, rest)
      | _ => unexpected line [] rest
  | _ => .ok (none, ls)

/-- Reads redirections as long as there are any. -/
def readRedirections : Nat → List Lexeme → Reading (List Redirection)
  | 0, ls => .ok ([], ls)
  | n + 1, ls =>
    match readRedirection ls with
    | .error e => .error e
    | .ok (none, ls) => .ok ([], ls)
    | .ok (some r, ls) => (readRedirections n ls).map fun (rs, ls) => (r :: rs, ls)

/-- The name and the value of a word that is an assignment. -/
def assignment? : Word → Option (Octets × Word)
  | .literal text false :: rest =>
    match Octets.cut? '=' text with
    | none => none
    | some (name, value) =>
      if isName name then some (name, if value.isEmpty then rest else .literal value false :: rest)
      else none
  | _ => none

/-- The parts of a simple command. -/
structure Parts where
  assignments : List (Octets × Word) := []
  words : List Word := []
  redirections : List Redirection := []

/-- The parts with one more word at the end. -/
def Parts.addWord (parts : Parts) (w : Word) : Parts :=
  if parts.words.isEmpty then
    match assignment? w with
    | some a => { parts with assignments := parts.assignments ++ [a] }
    | none => { parts with words := [w] }
  else { parts with words := parts.words ++ [w] }

/-- Reads the words and redirections of a simple command. -/
def readParts : Nat → Parts → List Lexeme → Reading Parts
  | 0, parts, ls => .ok (parts, ls)
  | n + 1, parts, ls =>
    match ls with
    | ⟨_, .word w⟩ :: rest => readParts n (parts.addWord w) rest
    | _ =>
      match readRedirection ls with
      | .error e => .error e
      | .ok (none, ls) => .ok (parts, ls)
      | .ok (some r, ls) => readParts n { parts with redirections := parts.redirections ++ [r] } ls

/-- Reads the words up to the end of a line or a `;`. -/
def readWords : List Lexeme → List Word × List Lexeme
  | ⟨_, .word w⟩ :: rest => let (ws, rest) := readWords rest; (w :: ws, rest)
  | ls => ([], ls)

/-- Reads the patterns of an arm, with `|` between them. -/
def readPatterns (line : Nat) : Nat → List Lexeme → Reading (List Word)
  | 0, ls => unexpected line [] ls
  | n + 1, ls =>
    match ls with
    | ⟨_, .word w⟩ :: rest =>
      if atOperator "|" rest then (readPatterns line n (rest.drop 1)).map fun (ws, ls) => (w :: ws, ls)
      else if atOperator ")" rest then .ok ([w], rest.drop 1)
      else unexpected line "\")\"".toList rest
    | _ => unexpected line [] ls

/-! ## Commands -/

mutual

/-- Reads commands up to a word or operator that ends a list of them. -/
def readList (line : Nat) : Nat → List Lexeme → Reading Cmd
  | 0, ls => unexpected line [] ls
  | n + 1, ls =>
    if (skipNewlines ls).isEmpty then .ok (.skip, [])
    else match readAndOr line n (skipNewlines ls) with
    | .error e => .error e
    | .ok (c, rest) =>
      let first := if atOperator "&" rest then .background c else c
      if atOperator "&" rest || atOperator ";" rest || atOperator "\n" rest then
        let rest := skipNewlines (rest.drop 1)
        if endsList rest then .ok (first, rest)
        else (readList line n rest).map fun (more, rest) => (.sequence first more, rest)
      else .ok (c, rest)

/-- Reads pipelines with `&&` and `||` between them. -/
def readAndOr (line : Nat) : Nat → List Lexeme → Reading Cmd
  | 0, ls => unexpected line [] ls
  | n + 1, ls =>
    match readPipeline line n ls with
    | .error e => .error e
    | .ok (c, rest) => readMore line n c rest

/-- Reads what follows a pipeline after `&&` or `||`. -/
def readMore (line : Nat) : Nat → Cmd → List Lexeme → Reading Cmd
  | 0, c, ls => .ok (c, ls)
  | n + 1, c, ls =>
    if atOperator "&&" ls || atOperator "||" ls then
      match readPipeline line n (skipNewlines (ls.drop 1)) with
      | .error e => .error e
      | .ok (d, rest) =>
        readMore line n (if atOperator "&&" ls then .both c d else .either c d) rest
    else .ok (c, ls)

/-- Reads commands with `|` between them. -/
def readPipeline (line : Nat) : Nat → List Lexeme → Reading Cmd
  | 0, ls => unexpected line [] ls
  | n + 1, ls =>
    if atWord "!" ls then
      (readPipeline line n (ls.drop 1)).map fun (c, rest) => (.negated c, rest)
    else
      match readCommand line n ls with
      | .error e => .error e
      | .ok (c, rest) =>
        if atOperator "|" rest then
          (readPipeline line n (skipNewlines (rest.drop 1))).map fun (d, rest) => (.pipeline c d, rest)
        else .ok (c, rest)

/-- Reads one command. -/
def readCommand (line : Nat) : Nat → List Lexeme → Reading Cmd
  | 0, ls => unexpected line [] ls
  | n + 1, ls =>
    let start := lineOf line ls
    if endsList ls then unexpected line [] ls
    else
      match readCompound line n ls with
      | .error e => .error e
      | .ok (some c, rest) =>
        (readRedirections (rest.length + 1) rest).map fun (rs, rest) =>
          (if rs.isEmpty then c else .redirected start c rs, rest)
      | .ok (none, _) =>
        match readParts (ls.length + 1) {} ls with
        | .error e => .error e
        | .ok (parts, rest) =>
          match parts.words, atOperator "(" rest && parts.assignments.isEmpty with
          | [w], true =>
            match bare? w, atOperator ")" (rest.drop 1) with
            | some name, true =>
              (readCommand line n (skipNewlines (rest.drop 2))).map fun (body, rest) =>
                (.define name body, rest)
            | some _, false => unexpected line "\")\"".toList (rest.drop 1)
            | none, _ => unexpected line [] rest
          | [], _ =>
            if parts.assignments.isEmpty && parts.redirections.isEmpty then unexpected line [] rest
            else .ok (.simple start parts.assignments [] parts.redirections, rest)
          | words, _ => .ok (.simple start parts.assignments words parts.redirections, rest)

/-- Reads a compound command, if one starts at the front. -/
def readCompound (line : Nat) : Nat → List Lexeme → Reading (Option Cmd)
  | 0, ls => .ok (none, ls)
  | n + 1, ls =>
    let ended (word : String) (result : Reading Cmd) : Reading (Option Cmd) :=
      match result with
      | .error e => .error e
      | .ok (c, rest) => (expectWord line word rest).map fun (_, rest) => (some c, rest)
    if atOperator "(" ls then
      match readList line n (ls.drop 1) with
      | .error e => .error e
      | .ok (c, rest) =>
        if atOperator ")" rest then .ok (some (.subshell c), rest.drop 1)
        else unexpected line "\")\"".toList rest
    else if atWord "\x7b" ls then ended "\x7d" (readList line n (ls.drop 1))
    else if atWord "if" ls then
      (readBranch line n (ls.drop 1)).map fun (c, rest) => (some c, rest)
    else if atWord "while" ls || atWord "until" ls then
      match readList line n (ls.drop 1) with
      | .error e => .error e
      | .ok (condition, rest) =>
        match expectWord line "do" rest with
        | .error e => .error e
        | .ok (_, rest) =>
          ended "done" ((readList line n rest).map fun (body, rest) =>
            (.loop (atWord "until" ls) condition body, rest))
    else if atWord "for" ls then
      match (headWord? (ls.drop 1)).filter isName with
      | none => .error (lineOf line (ls.drop 1), "Bad for loop variable".toList)
      | some name =>
        let after := skipNewlines (ls.drop 2)
        let (words, rest) :=
          if atWord "in" after then
            let (words, rest) := readWords (after.drop 1)
            (some words, rest)
          else (none, after)
        let rest := skipNewlines (if atOperator ";" rest then rest.drop 1 else rest)
        match expectWord line "do" rest with
        | .error e => .error e
        | .ok (_, rest) =>
          ended "done" ((readList line n rest).map fun (body, rest) =>
            (.each (lineOf line ls) name words body, rest))
    else if atWord "case" ls then
      match ls.drop 1 with
      | ⟨_, .word subject⟩ :: rest =>
        match expectWord line "in" (skipNewlines rest) with
        | .error e => .error e
        | .ok (_, rest) =>
          ended "esac" ((readArms line n rest).map fun (arms, rest) =>
            (.choice (lineOf line ls) subject arms, rest))
      | rest => unexpected line [] rest
    else .ok (none, ls)

/-- Reads a condition and its branches, after `if` or `elif`. -/
def readBranch (line : Nat) : Nat → List Lexeme → Reading Cmd
  | 0, ls => unexpected line [] ls
  | n + 1, ls =>
    match readList line n ls with
    | .error e => .error e
    | .ok (condition, rest) =>
      match expectWord line "then" rest with
      | .error e => .error e
      | .ok (_, rest) =>
        match readList line n rest with
        | .error e => .error e
        | .ok (yes, rest) =>
          if atWord "elif" rest then
            (readBranch line n (rest.drop 1)).map fun (no, rest) => (.branch condition yes no, rest)
          else if atWord "else" rest then
            match readList line n (rest.drop 1) with
            | .error e => .error e
            | .ok (no, rest) =>
              (expectWord line "fi" rest).map fun (_, rest) => (.branch condition yes no, rest)
          else
            (expectWord line "fi" rest).map fun (_, rest) => (.branch condition yes .skip, rest)

/-- Reads the arms of a choice. -/
def readArms (line : Nat) : Nat → List Lexeme → Reading Cmd
  | 0, ls => unexpected line [] ls
  | n + 1, ls =>
    let ls := skipNewlines ls
    if atWord "esac" ls then .ok (.skip, ls)
    else if ls.isEmpty then unexpected line "\")\"".toList ls
    else
      match readPatterns line (ls.length + 1) (if atOperator "(" ls then ls.drop 1 else ls) with
      | .error e => .error e
      | .ok (patterns, rest) =>
        let rest := skipNewlines rest
        let body : Reading Cmd :=
          if atOperator ";;" rest || atWord "esac" rest then .ok (.skip, rest)
          else readList line n rest
        match body with
        | .error e => .error e
        | .ok (body, rest) =>
          if atOperator ";;" rest then
            (readArms line n (rest.drop 1)).map fun (more, rest) => (.arm patterns body more, rest)
          else .ok (.arm patterns body .skip, rest)

end

/-! ## Scripts -/

/-- Reads the commands of one complete line. -/
def readLine (line depth : Nat) : Nat → List Lexeme → Reading Cmd
  | 0, ls => unexpected line [] ls
  | n + 1, ls =>
    match readAndOr line depth ls with
    | .error e => .error e
    | .ok (c, rest) =>
      let first := if atOperator "&" rest then .background c else c
      if atOperator "&" rest || atOperator ";" rest then
        let rest := rest.drop 1
        if rest.isEmpty || atOperator "\n" rest then .ok (first, rest)
        else (readLine line depth n rest).map fun (more, rest) => (.sequence first more, rest)
      else if rest.isEmpty || atOperator "\n" rest then .ok (c, rest)
      else unexpected line [] rest

/-- Reads the complete lines of a script whose last line is `line`, as far as it can be read. -/
def readLines (depth line : Nat) : Nat → List Lexeme → Script
  | 0, _ => { lines := [] }
  | n + 1, ls =>
    let ls := skipNewlines ls
    if ls.isEmpty then { lines := [] }
    else
      match readLine line depth (ls.length + 1) ls with
      | .error e => { lines := [], error := some e }
      | .ok (c, rest) =>
        let more := readLines depth line n rest
        { more with lines := c :: more.lines }

/-- The script that a text writes, when its first line has the number `line`. -/
def Script.ofText (line : Nat) (text : Octets) : Script :=
  let ls := lexemes (text.length + 1) line text
  readLines (8 * ls.length + 8) (line + countLines text) (ls.length + 1) ls

end TestHarness.Shell
