import TestHarness.Files.Stream
import TestHarness.Path
import TestHarness.Text.Scrub

/-!
# Finishing output

The output of a finished test is put together from the text of the test itself and one labelled
section per redirected file, and is then repaired so that any report can carry it.  Each problem is
mended in place and reported as a notice; nothing here fails.

The steps run in a fixed order: sections, the caveat on substituted characters, the NUL repair.
Since a notice of status replaces an earlier one, the last problem found decides the status.
-/

namespace TestHarness

/-- How the files of a file system open at one moment: each path gives a `Stream` or none. -/
abbrev FileView := Path → Option Stream

namespace Output

/-! ## Texts -/

/-- The status of a test one of whose files cannot be opened, and so was not produced in time: an
    error, `FILE TIMEOUT`. -/
def fileTimeout : Status := .ofError "FILE TIMEOUT"

/-- The status of a test whose output had NULs: an error, `NULL characters in output`. -/
def nulCharacters : Status := .ofError "NULL characters in output"

/-- The body of a section whose file cannot be opened: the line `FILE UNAVAILABLE`. -/
def unavailable : String := "FILE UNAVAILABLE\n"

/-- The caveat of a test whose output had ill-formed runs. -/
def invalidCharacters : String := "invalid characters in output"

/-! ## Sections -/

/-- The label of a redirected file's section: `Redirected output` and the path. -/
def label (path : Path) : String := "Redirected output " ++ path.display

/-- The body of a file's section: what `readText` reads, or `unavailable` with the status
    `fileTimeout`. -/
def body (files : FileView) (path : Path) : String × List Notice :=
  match files path with
  | some stream => stream.readText
  | none => (unavailable, [.status fileTimeout])

/-- A file's whole section, its `body` under its header. -/
def fileSection (files : FileView) (width : Nat) (path : Path) : String :=
  Section.header (label path) width ++ (body files path).1

/-- Adds one section per file to `output`, in the order of the files. -/
def appendSections (files : FileView) (width : Nat) (output : String) :
    List Path → String × List Notice
  | [] => (output, [])
  | path :: paths =>
    let (result, notices) :=
      appendSections files width (output ++ fileSection files width path) paths
    (result, (body files path).2 ++ notices)

/-! ## Repairs -/

/-- The caveat `invalidCharacters` is made when decoding has substituted characters. -/
def substitutionNotices (replacedInvalid : Bool) : List Notice :=
  if replacedInvalid then [.caveat invalidCharacters] else []

/-- Writes `NULL` for NULs, and says whether there were any. -/
def repairNul (output : String) : String × Bool :=
  if Scrub.needed output then (Scrub.apply output, true) else (output, false)

/-- The notices of a NUL repair: the status `nulCharacters` if it found any. -/
def nulNotices (repaired : Bool) : List Notice :=
  if repaired then [.status nulCharacters] else []

/-- **Finished output.** The sections, the caveat and the repair, with their notices in order:
    `appendSections`, `substitutionNotices`, `repairNul`. -/
def finish (files : FileView) (paths : List Path) (width : Nat) (replacedInvalid : Bool)
    (output : String) : String × List Notice :=
  let (merged, fileNotices) := appendSections files width output paths
  let (repaired, hadNul) := repairNul merged
  (repaired, fileNotices ++ substitutionNotices replacedInvalid ++ nulNotices hadNul)

end Output

end TestHarness
