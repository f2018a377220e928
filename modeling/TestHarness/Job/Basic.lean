import TestHarness.Job.Status
import TestHarness.Tester
import TestHarness.Text.Quoted

/-!
# Jobs

A job is one test under orchestration: its tester, its status and its caveats.  Every change to it
is a notice: a status replaces the previous one, and a caveat is kept once, in the order of first
appearance.
-/

namespace TestHarness

/-- One test, by its `tester`, with its status and caveats. -/
structure Job where
  tester : TestPlan
  status : Status := {}
  caveats : List String := []
deriving Inhabited

namespace Job

/-- The test's name, that of its `tester`. -/
def name (j : Job) : String := j.tester.name

/-- Replaces the `status`. -/
def setStatus (j : Job) (s : Status) : Job := { j with status := s }

/-- Attaches a caveat, unless the job has it already. -/
def addCaveat (j : Job) (text : String) : Job :=
  if text ∈ j.caveats then j else { j with caveats := j.caveats ++ [text] }

/-- Takes one notice: `setStatus` or `addCaveat`. -/
def notify (j : Job) : Notice → Job
  | .status s => j.setStatus s
  | .caveat text => j.addCaveat text

/-- Takes notices in order, each with `notify`. -/
def notifyAll (j : Job) (notices : List Notice) : Job := notices.foldl notify j

/-- Whether the test went wrong: its kind is `error`. -/
def isError (j : Job) : Bool := j.status.kind = .error

/-- The job as it is shown for debugging: name, status and caveats, with texts quoted. -/
def debugText (j : Job) : String :=
  "Job \x7b name: " ++ Quoted.text j.name ++
    ", status: JobStatus \x7b kind: " ++ j.status.kind.title ++
    ", message: " ++ Quoted.text j.status.message ++ " \x7d, caveats: [" ++
    ", ".intercalate (j.caveats.map Quoted.text) ++ "] \x7d"

end Job

end TestHarness
