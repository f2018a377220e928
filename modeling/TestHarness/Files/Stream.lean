import TestHarness.Job.Status
import TestHarness.Text.Section
import TestHarness.Text.Utf8

/-!
# Streams and the text they hold

A stream is a string of octets with a position; seeking and reading may fail.  `Stream.readText`
reads a stream from its beginning as text.  Its failures never stop the caller: they set the status
and the text is empty.
-/

namespace TestHarness

/-- A seekable stream of octets. -/
structure Stream where
  data : Bytes
  /-- Where reading continues; it may lie past the end. -/
  position : Nat := 0
  /-- Whether seeking fails. -/
  seekFails : Bool := false
  /-- Reading gives the octets before this offset and then fails. -/
  failAt : Option Nat := none
deriving DecidableEq, Repr, Inhabited

namespace Stream

/-- The stream at `position` 0, if it can be sought. -/
def rewind? (s : Stream) : Option Stream :=
  if s.seekFails then none else some { s with position := 0 }

/-- The octets from `position` on that can be read, and whether the end was reached. -/
def readToEnd (s : Stream) : Bytes × Bool :=
  match s.failAt with
  | none => (s.data.drop s.position, true)
  | some n => ((s.data.take n).drop s.position, false)

/-- All octets from the beginning, if `rewind?` and `readToEnd` get them. -/
def readAll? (s : Stream) : Option Bytes :=
  match s.rewind? with
  | none => none
  | some s => if s.readToEnd.2 then some s.readToEnd.1 else none

/-- The status of a test whose output cannot be read: `error reading output`. -/
def readError : Status := .ofError "error reading output"

/-- The status of a test whose output is not UTF-8: `non-unicode characters in output`. -/
def nonUnicode : Status := .ofError "non-unicode characters in output"

/-- All octets as text whose last line is ended, with the notices that reading makes: none,
    `readError` or `nonUnicode`. -/
def readText (s : Stream) : String × List Notice :=
  match s.readAll? with
  | none => ("", [.status readError])
  | some bytes =>
    match Utf8.decode? bytes with
    | none => ("", [.status nonUnicode])
    | some text => (Section.endLine text, [])

end Stream

end TestHarness
