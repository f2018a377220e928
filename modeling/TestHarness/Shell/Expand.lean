import TestHarness.Shell.Arithmetic
import TestHarness.Shell.Lexer
import TestHarness.Shell.Pattern

/-!
# Expanding words

What words come to, given the variables and parameters of a shell.  Command substitutions are run
beforehand, so nothing here starts a process.

An expanded word is first a list of parts, which remember whether they were quoted; it is then
split into fields where an unquoted value contains separators.

## Contents
* `Scope`, what a shell knows
* `expandPiece` and `expandWord`
* `fieldsOf`, `textOf`, `patternOf`
-/

namespace TestHarness.Shell

/-! ## What a shell knows -/

/-- The variables and parameters of a shell. -/
structure Scope where
  store : Expr.Store := []
  /-- The variables that programs see. -/
  exported : List Octets := []
  /-- The variables that may not be set again. -/
  readOnly : List Octets := []
  arguments : List Octets := []
  /-- The name of the shell or script. -/
  zero : Octets := "sh".toList
  /-- The status of the last command. -/
  status : Nat := 0
  /-- The process number of the main shell. -/
  pid : Nat := 0
  /-- The last process that was started in the background. -/
  background : Option Nat := none
  /-- Whether unset variables are errors. -/
  strict : Bool := false
  /-- Whether a failing command ends the shell. -/
  stopsOnFailure : Bool := false
deriving Repr, Inhabited

namespace Scope

/-- Sets a variable. -/
def set (s : Scope) (name value : Octets) : Scope :=
  { s with store := (name, value) :: s.store.filter (·.1 ≠ name) }

/-- The complaint about setting a variable that may not be set again. -/
def readOnlyComplaint (name : Octets) : Octets := name ++ ": is read only".toList

/-- Sets a variable that may be set. -/
def setChecked (s : Scope) (name value : Octets) : Except Octets Scope :=
  if s.readOnly.contains name then .error (readOnlyComplaint name) else .ok (s.set name value)

/-- Removes a variable. -/
def unset (s : Scope) (name : Octets) : Scope :=
  { s with store := s.store.filter (·.1 ≠ name), exported := s.exported.filter (· ≠ name) }

/-- Lets programs see a variable. -/
def «export» (s : Scope) (name : Octets) : Scope :=
  if s.exported.contains name then s else { s with exported := s.exported ++ [name] }

/-- The variables that programs see, with their values. -/
def environment (s : Scope) : List (Octets × Octets) :=
  s.exported.filterMap fun name => (s.store.lookup name).map fun value => (name, value)

/-- The separators of fields. -/
def separators (s : Scope) : Octets := (s.store.lookup "IFS".toList).getD " \t\n".toList

/-- The options that are on. -/
def flags (s : Scope) : Octets :=
  (if s.stopsOnFailure then ['e'] else []) ++ if s.strict then ['u'] else []

/-- The value of a parameter, other than the list of arguments. -/
def value? (s : Scope) (name : Octets) : Option Octets :=
  match name with
  | ['?'] => some (Octets.ofNat s.status)
  | ['$'] => some (Octets.ofNat s.pid)
  | ['#'] => some (Octets.ofNat s.arguments.length)
  | ['!'] => some ((s.background.map Octets.ofNat).getD [])
  | ['-'] => some s.flags
  | ['0'] => some s.zero
  | _ =>
    match Octets.natural? name with
    | some n => s.arguments[n - 1]?
    | none => s.store.lookup name

end Scope

/-! ## Parts -/

/-- A part of an expanded word. -/
inductive Part where
  | quoted (text : Octets)
  /-- Text as it was written. -/
  | plain (text : Octets)
  /-- A value, which is split into fields. -/
  | value (text : Octets)
  /-- The boundary between two arguments. -/
  | boundary
deriving DecidableEq, Repr

namespace Part

/-- The text of a part. -/
def text : Part → Octets
  | quoted t => t
  | plain t => t
  | value t => t
  | boundary => [' ']

/-- The part of a text. -/
def ofValue (isQuoted : Bool) (t : Octets) : Part := if isQuoted then quoted t else value t

end Part

/-- The text of parts, without splitting. -/
def textOf (parts : List Part) : Octets := parts.flatMap Part.text

/-- Parts as a pattern. -/
def patternOf (parts : List Part) : Field :=
  parts.flatMap fun p => match p with
    | .quoted t => Field.ofText true t
    | p => Field.ofText false p.text

/-! ## Expanding -/

/-- Parts with the scope after them, or a complaint. -/
abbrev Expansion := Except Octets (List Part × Scope)

/-- The parts of the list of arguments. -/
def argumentParts (s : Scope) (together isQuoted : Bool) : List Part :=
  if together && isQuoted then
    [.quoted (Octets.join (s.separators.take 1) s.arguments)]
  else (s.arguments.map (Part.ofValue isQuoted)).intersperse .boundary

/-- The word that stands for a parameter, with or without the quotes around it. -/
def innerWord (isQuoted : Bool) (word : Octets) : Word :=
  if isQuoted then quotedWord word else wholeWord word

mutual

/-- The parts of one piece. -/
def expandPiece : Nat → Scope → Piece → Expansion
  | 0, s, _ => .ok ([], s)
  | n + 1, s, p =>
    match p with
    | .literal text isQuoted => .ok ([if isQuoted then .quoted text else .plain text], s)
    | .output text isQuoted => .ok ([Part.ofValue isQuoted text], s)
    | .substitution _ _ => .ok ([], s)
    | .bad => .error "Bad substitution".toList
    | .arithmetic source isQuoted =>
      match expandPieces n s (quotedWord source) with
      | .error e => .error e
      | .ok (parts, s) =>
        let text := textOf parts
        let complain (what : String) : Expansion :=
          .error ("arithmetic expression: ".toList ++ what.toList ++ ": \"".toList ++ text ++ ['"'])
        match Expr.ofText text with
        | .error what => complain what
        | .ok e =>
          match e.eval s.store with
          | .error what =>
            if what = "division by zero" then complain what else .error what.toList
          | .ok (v, store) =>
            .ok ([Part.ofValue isQuoted (Octets.ofInt v)], { s with store })
    | .parameter name modifier isQuoted =>
      if (name = ['@'] ∨ name = ['*']) ∧ modifier = .none then
        .ok (argumentParts s (name = ['*']) isQuoted, s)
      else
        let current :=
          if name = ['@'] ∨ name = ['*'] then
            if s.arguments.isEmpty then none else some (Octets.join [' '] s.arguments)
          else s.value? name
        let absent (orEmpty : Bool) : Bool := current.isNone || (orEmpty && current = some [])
        let found : Expansion := .ok ([Part.ofValue isQuoted (current.getD [])], s)
        let unset : Expansion := .error (name ++ ": parameter not set".toList)
        match modifier with
        | .none => if s.strict && current.isNone then unset else found
        | .length =>
          if s.strict && current.isNone then unset
          else .ok ([Part.ofValue isQuoted (Octets.ofNat (current.getD []).length)], s)
        | .default orEmpty word =>
          if absent orEmpty then expandPieces n s (innerWord isQuoted word) else found
        | .instead orEmpty word =>
          if absent orEmpty then .ok ([Part.ofValue isQuoted []], s)
          else expandPieces n s (innerWord isQuoted word)
        | .assign orEmpty word =>
          if absent orEmpty then
            match expandPieces n s (innerWord isQuoted word) with
            | .error e => .error e
            | .ok (parts, s) =>
              .ok ([Part.ofValue isQuoted (textOf parts)], s.set name (textOf parts))
          else found
        | .require orEmpty word =>
          if absent orEmpty then
            match expandPieces n s (innerWord true word) with
            | .error e => .error e
            | .ok (parts, _) =>
              let message := textOf parts
              if !message.isEmpty then .error (name ++ ": ".toList ++ message)
              else if orEmpty then .error (name ++ ": parameter not set or null".toList)
              else unset
          else found
        | .remove front longest pattern =>
          if s.strict && current.isNone then unset
          else
            match expandPieces n s (wholeWord pattern) with
            | .error e => .error e
            | .ok (parts, s) =>
              let left := (patternOf parts).removeFrom front longest (current.getD [])
              .ok ([Part.ofValue isQuoted left], s)

/-- The parts of pieces, from left to right. -/
def expandPieces : Nat → Scope → Word → Expansion
  | 0, s, _ => .ok ([], s)
  | _, s, [] => .ok ([], s)
  | n + 1, s, p :: rest =>
    match expandPiece n s p with
    | .error e => .error e
    | .ok (parts, s) => (expandPieces n s rest).map fun (more, s) => (parts ++ more, s)

end

/-- A word with a leading `~` written out. -/
def expandTilde (s : Scope) (w : Word) : Word :=
  match w, s.store.lookup "HOME".toList with
  | .literal ('~' :: rest) false :: more, some home =>
    if rest.isEmpty then (if more.isEmpty then [.literal home true] else w)
    else if rest.head? = some '/' then .literal home true :: .literal rest false :: more
    else w
  | _, _ => w

/-- A bound on how deep words contain each other. -/
def depthOf (w : Word) : Nat :=
  w.foldl (fun n p => n + match p with
    | .parameter _ (.default _ word) _ => word.length + 4
    | .parameter _ (.assign _ word) _ => word.length + 4
    | .parameter _ (.require _ word) _ => word.length + 4
    | .parameter _ (.instead _ word) _ => word.length + 4
    | .parameter _ (.remove _ _ pattern) _ => pattern.length + 4
    | .arithmetic source _ => source.length + 4
    | _ => 4) 4

/-- The parts of a word. -/
def expandWord (s : Scope) (w : Word) : Expansion :=
  let w := expandTilde s w
  expandPieces (2 * depthOf w) s w

/-! ## Fields -/

/-- Fields under construction: the finished ones, and the open one if there is one. -/
structure Fields where
  done : List Field := []
  current : Option Field := none

namespace Fields

/-- Adds characters to the open field, which is opened if need be. -/
def add (f : Fields) (more : Field) : Fields :=
  { f with current := some (f.current.getD [] ++ more) }

/-- Closes the open field. -/
def close (f : Fields) : Fields :=
  match f.current with
  | some field => { done := f.done ++ [field] }
  | none => f

/-- Adds a value, which is split at separators. -/
def addValue (separators : Octets) (f : Fields) (value : Octets) : Fields :=
  value.foldl (fun f c =>
    if !separators.contains c then f.add [(c, false)]
    else if c = ' ' ∨ c = '\t' ∨ c = '\n' then f.close
    else (if f.current.isSome then f else f.add []).close) f

/-- Adds one part. -/
def addPart (separators : Octets) (f : Fields) : Part → Fields
  | .quoted t => f.add (Field.ofText true t)
  | .plain t => if t.isEmpty then f else f.add (Field.ofText false t)
  | .value t => addValue separators f t
  | .boundary => f.close

end Fields

/-- The fields of parts. -/
def fieldsOf (separators : Octets) (parts : List Part) : List Field :=
  (parts.foldl (Fields.addPart separators) {}).close.done

/-- The fields of words, from left to right, with the scope after them. -/
def expandWords (s : Scope) : List Word → Except Octets (List Field × Scope)
  | [] => .ok ([], s)
  | w :: ws =>
    match expandWord s w with
    | .error e => .error e
    | .ok (parts, s) =>
      (expandWords s ws).map fun (fields, s) => (fieldsOf s.separators parts ++ fields, s)

/-- The text of a word that is not split. -/
def expandText (s : Scope) (w : Word) : Except Octets (Octets × Scope) :=
  (expandWord s w).map fun (parts, s) => (textOf parts, s)

end TestHarness.Shell
