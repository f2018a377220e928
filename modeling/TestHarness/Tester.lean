import TestHarness.Command
import TestHarness.Options.Basic

/-!
# Testers

A tester says what to run for one test and which files the test writes its output to instead of its
own streams.  `TestPlan` is what a runner learns from it, whatever kind of tester it is.  `Tester` is
the kind that runs a fixed command; with redirected output, each rank of it writes one file.
-/

namespace TestHarness

/-! ## What a runner learns -/

/-- The parameters of one test: its name and, under given options, the command to run and the files
    that stand in for its own streams, in the order of their sections. -/
structure TestPlan where
  name : String
  command : Options → Command
  redirectedFiles : Options → List Path
deriving Inhabited

/-! ## Fixed commands -/

/-- **A tester that runs a fixed command**; `plan` is what a runner learns from it. -/
structure Tester where
  name : String
  command : Command
  /-- The directory of redirected output. -/
  testDir : Option Path := none
  /-- Whether each rank writes its output to a file. -/
  redirectOutput : Bool := false
  /-- The test's own processor count. -/
  processors : Option UInt32 := none
deriving Repr, Inhabited

namespace Tester

/-- The number of ranks: the tester's `processors`, else the harness's, and at least one. -/
def effectiveProcessors (t : Tester) (o : Options) : Nat :=
  max 1 (t.processors.getD o.tests.processors).toNat

/-- The directory of redirected output: the tester's `testDir`, else the harness's, else the
    command's, else `.`. -/
def outputDir (t : Tester) (o : Options) : Path :=
  t.testDir.getD (o.tests.outputDir.getD (t.command.cwd.getD (.ofString ".")))

/-- The file name of one rank's output, `<name>.processor.<rank>`. -/
def rankFile (t : Tester) (rank : Nat) : Path :=
  .ofString (t.name ++ ".processor." ++ toString rank)

/-- The redirected output files in the order of their ranks, each a `rankFile` in the
    `outputDir`. -/
def redirectedFiles (t : Tester) (o : Options) : List Path :=
  if t.redirectOutput then
    (List.range (t.effectiveProcessors o)).map fun rank => (t.outputDir o).join (t.rankFile rank)
  else []

/-- What a runner learns from the tester: the same command under any options, and its
    `redirectedFiles`. -/
def plan (t : Tester) : TestPlan :=
  { name := t.name, command := fun _ => t.command, redirectedFiles := t.redirectedFiles }

instance : Coe Tester TestPlan := ⟨plan⟩

end Tester

end TestHarness
