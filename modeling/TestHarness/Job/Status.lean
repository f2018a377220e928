/-!
# Status of a test

A status is a kind and a short message.  While a test's output is finished, problems are reported
as *notices*: a notice replaces the status or attaches a caveat.
-/

namespace TestHarness

/-- The outcome category of a test. -/
inductive StatusKind where
  | pending
  | running
  | passed
  | failed
  | error
  | timeout
  | skipped
deriving DecidableEq, Repr, Inhabited

namespace StatusKind

/-- Every kind, in declaration order. -/
def all : List StatusKind := [pending, running, passed, failed, error, timeout, skipped]

/-- The kind's name in reports, the one that `ofName?` reads. -/
def name : StatusKind → String
  | pending => "pending"
  | running => "running"
  | passed => "passed"
  | failed => "failed"
  | error => "error"
  | timeout => "timeout"
  | skipped => "skipped"

/-- The kind of that `name`; names are matched exactly. -/
def ofName? (text : String) : Option StatusKind := all.find? (·.name == text)

/-- The kind's name as a constructor, used when a status is shown for debugging. -/
def title : StatusKind → String
  | pending => "Pending"
  | running => "Running"
  | passed => "Passed"
  | failed => "Failed"
  | error => "Error"
  | timeout => "Timeout"
  | skipped => "Skipped"

end StatusKind

/-- A status kind and the message shown next to it. -/
structure Status where
  kind : StatusKind := .pending
  message : String := ""
deriving DecidableEq, Repr, Inhabited

/-- The status of a test that went wrong, of kind `error`. -/
def Status.ofError (message : String) : Status := { kind := .error, message }

/-- A report made while output is finished: a `status` or a `caveat`. -/
inductive Notice where
  | status (s : Status)
  | caveat (text : String)
deriving DecidableEq, Repr

end TestHarness
