import TestHarness.Job.Status
import TestHarness.Json.Value

/-!
# Statuses in JSON

A status is written as an object with the members `kind` and `message`, in this order and without
blanks.  It is read from such an object, whose further members are ignored, or from an array of the
two values.  A kind is read from its name or from an object whose only member has that name and the
value null.
-/

namespace TestHarness

/-! ## Writing -/

/-- The JSON text of a status, an object with the members `kind` and `message`. -/
def Status.toJson (s : Status) : String :=
  "\x7b\"kind\":" ++ Json.Literal.write s.kind.name ++ ",\"message\":" ++
    Json.Literal.write s.message ++ "\x7d"

/-! ## Reading -/

/-- The kind that a JSON value names: a string, or an object whose one member is `null` under the
    name. -/
def StatusKind.ofJson? : Json → Option StatusKind
  | .string (some name) => ofName? name
  | .object [(some name, .null)] => ofName? name
  | _ => none

/-- The values of the members under `key`. -/
def Json.membersNamed (key : String) (members : List (Option String × Json)) : List Json :=
  (members.filter fun member => member.1 = some key).map Prod.snd

/-- The status that a kind, read by `StatusKind.ofJson?`, and a message write. -/
def Status.ofParts? (kind message : Json) : Option Status := do
  return { kind := ← StatusKind.ofJson? kind, message := ← message.text? }

/-- The status that a JSON value holds: an object with `kind` and `message`, each exactly once, all
    of whose keys are texts; or an array of the two. -/
def Status.ofJson? : Json → Option Status
  | .object members =>
    if members.all (·.1.isSome) then
      match Json.membersNamed "kind" members, Json.membersNamed "message" members with
      | [kind], [message] => ofParts? kind message
      | _, _ => none
    else none
  | .array [kind, message] => ofParts? kind message
  | _ => none

/-- The status that a JSON text holds, by `Status.ofJson?`. -/
def Status.ofJsonText? (text : String) : Option Status := (Json.ofText? text).bind ofJson?

end TestHarness
