import TestHarness.Json.Literal

/-!
# JSON values

A JSON text is cut into tokens, and a machine with a stack puts the tokens together to one value.
Numbers are kept without their value, since nothing here asks for it.  A string literal that has an
unpaired surrogate is well-formed JSON but no text; it is kept as `none`.

## Contents
* `Token`, `tokens`: cutting a text into tokens
* `Json`: values
* `Frame`, `Parser`: putting tokens together, one token at a time
* `Json.ofText?`
-/

namespace TestHarness.Json

/-! ## Tokens -/

/-- A token of a JSON text. -/
inductive Token where
  | openArray
  | closeArray
  | openObject
  | closeObject
  | comma
  | colon
  | null
  | bool (value : Bool)
  | number
  | string (text : Option String)
deriving DecidableEq, Repr

/-- The blanks that may stand between tokens. -/
def isBlank (c : Char) : Bool := c = ' ' || c = '\t' || c = '\n' || c = '\r'

/-- Drops the decimal digits at the front; at least one is required. -/
def digits? (cs : List Char) : Option (List Char) :=
  if (cs.head?.map Char.isDigit).getD false then some (cs.dropWhile Char.isDigit) else none

/-- What follows an integer part without a sign, which has no leading zero. -/
def afterInteger? : List Char → Option (List Char)
  | '0' :: rest => some rest
  | cs => digits? cs

/-- What follows an optional fraction. -/
def afterFraction? : List Char → Option (List Char)
  | '.' :: rest => digits? rest
  | cs => some cs

/-- What follows an optional exponent. -/
def afterExponent? : List Char → Option (List Char)
  | c :: rest =>
    if c = 'e' ∨ c = 'E' then
      match rest with
      | '+' :: rest => digits? rest
      | '-' :: rest => digits? rest
      | rest => digits? rest
    else some (c :: rest)
  | [] => some []

/-- What follows a number at the front. -/
def afterNumber? (cs : List Char) : Option (List Char) := do
  let unsigned := match cs with
    | '-' :: rest => rest
    | cs => cs
  afterExponent? (← afterFraction? (← afterInteger? unsigned))

/-- The token at the front, which is no blank, and what follows it. -/
def token? : List Char → Option (Token × List Char)
  | '[' :: rest => some (.openArray, rest)
  | ']' :: rest => some (.closeArray, rest)
  | '\x7b' :: rest => some (.openObject, rest)
  | '\x7d' :: rest => some (.closeObject, rest)
  | ',' :: rest => some (.comma, rest)
  | ':' :: rest => some (.colon, rest)
  | 'n' :: 'u' :: 'l' :: 'l' :: rest => some (.null, rest)
  | 't' :: 'r' :: 'u' :: 'e' :: rest => some (.bool true, rest)
  | 'f' :: 'a' :: 'l' :: 's' :: 'e' :: rest => some (.bool false, rest)
  | '"' :: rest =>
    (Literal.readUnits rest).map fun (units, after) =>
      (.string ((Literal.joinUnits units).map String.ofList), after)
  | cs => (afterNumber? cs).map fun after => (.number, after)

/-- The tokens of a text; `fuel` bounds their number. -/
def tokensWithin : Nat → List Char → Option (List Token)
  | fuel, cs =>
    match fuel, cs.dropWhile isBlank with
    | _, [] => some []
    | 0, _ => none
    | fuel + 1, cs =>
      match token? cs with
      | none => none
      | some (token, rest) => (tokensWithin fuel rest).map (token :: ·)

/-- The tokens of a text.  Each takes at least one character, so the text's length bounds them. -/
def tokens (cs : List Char) : Option (List Token) := tokensWithin cs.length cs

end Json

/-! ## Values -/

/-- A JSON value.  Members of an object keep their order and may repeat a key. -/
inductive Json where
  | null
  | bool (value : Bool)
  | number
  | string (text : Option String)
  | array (items : List Json)
  | object (members : List (Option String × Json))

namespace Json

/-! ## Putting tokens together -/

/-- An array or object that is still open, with its finished items in reverse order. -/
inductive Frame where
  | array (items : List Json)
  | object (members : List (Option String × Json)) (key : Option String)

/-- What may come next, and the frames that are open. -/
inductive Parser where
  /-- A value. -/
  | value (stack : List Frame)
  /-- The first item of an array, or its end. -/
  | firstItem (stack : List Frame)
  /-- A comma, or the end of the array. -/
  | afterItem (items : List Json) (stack : List Frame)
  /-- The first key of an object, or its end. -/
  | firstKey (stack : List Frame)
  /-- A key. -/
  | nextKey (members : List (Option String × Json)) (stack : List Frame)
  /-- The colon after a key. -/
  | colon (members : List (Option String × Json)) (key : Option String) (stack : List Frame)
  /-- A comma, or the end of the object. -/
  | afterMember (members : List (Option String × Json)) (stack : List Frame)
  /-- Nothing: the value is complete. -/
  | done (value : Json)

namespace Parser

/-- Hands a finished value to the innermost open frame. -/
def supply : List Frame → Json → Parser
  | [], v => .done v
  | .array items :: stack, v => .afterItem (v :: items) stack
  | .object members key :: stack, v => .afterMember ((key, v) :: members) stack

/-- Starts a value with its first token. -/
def start (stack : List Frame) : Token → Option Parser
  | .null => some (supply stack .null)
  | .bool b => some (supply stack (.bool b))
  | .number => some (supply stack .number)
  | .string text => some (supply stack (.string text))
  | .openArray => some (.firstItem stack)
  | .openObject => some (.firstKey stack)
  | _ => none

/-- Takes one token. -/
def step : Parser → Token → Option Parser
  | .value stack, token => start stack token
  | .firstItem stack, .closeArray => some (supply stack (.array []))
  | .firstItem stack, token => start (.array [] :: stack) token
  | .afterItem items stack, .comma => some (.value (.array items :: stack))
  | .afterItem items stack, .closeArray => some (supply stack (.array items.reverse))
  | .firstKey stack, .closeObject => some (supply stack (.object []))
  | .firstKey stack, .string key => some (.colon [] key stack)
  | .nextKey members stack, .string key => some (.colon members key stack)
  | .colon members key stack, .colon => some (.value (.object members key :: stack))
  | .afterMember members stack, .comma => some (.nextKey members stack)
  | .afterMember members stack, .closeObject => some (supply stack (.object members.reverse))
  | _, _ => none

/-- Takes tokens in order. -/
def feed (p : Parser) : List Token → Option Parser
  | [] => some p
  | token :: rest => (p.step token).bind fun p => p.feed rest

/-- The value, once it is complete. -/
def result? : Parser → Option Json
  | .done v => some v
  | _ => none

end Parser

/-- The value that tokens write. -/
def ofTokens? (ts : List Token) : Option Json := ((Parser.value []).feed ts).bind Parser.result?

/-- The value of a text, if the text is one JSON value and blanks. -/
def ofText? (text : String) : Option Json := (tokens text.toList).bind ofTokens?

/-- The text of a string value. -/
def text? : Json → Option String
  | .string text => text
  | _ => none

end Json

end TestHarness
