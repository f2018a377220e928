import TestHarness.Proofs.Core.Runs
import TestHarness.Proofs.Text.Utf8

/-!
# What finishing reports

Finishing tells the job of every repair and of nothing else. What a redirected file comes to, the body of
its section and its report, hangs on how that file opens (`FileOutcome`), and on no other file. The reports
stand in the order of the files; the caveat on substitutions and the error on NULs follow, and the latter is
decided by all the text that has been put together (`notices_exact`). A job keeps the last status that it is
told.
-/

namespace TestHarness

namespace Output

/-! ## One file -/

/-- **`FileOutcome`** — what a redirected file comes to: the body of its section, and the status that is
    reported for it, if one is. -/
inductive FileOutcome (files : FileView) (path : Path) : String → Option Status → Prop where
  | missing : files path = none →
      FileOutcome files path "FILE UNAVAILABLE\n" (some { kind := .error, message := "FILE TIMEOUT" })
  | opened {stream : Stream} {body : String} {fault : Option Status} : files path = some stream →
      stream.ReadsAs body fault → FileOutcome files path body fault

theorem fileOutcome (files : FileView) (path : Path) :
    FileOutcome files path (bodyText files path) (fault? files path) := by
  unfold bodyText fault?
  cases hopen : files path with
  | none => exact .missing hopen
  | some stream => exact .opened hopen stream.readsAs

/-- **One file's outcome is its own**: a file system `other` that opens other files otherwise, or not at all,
    leaves `bodyText` and `fault?` of this one as they are. -/
theorem outcome_congr {files other : FileView} {path : Path} (h : other path = files path) :
    bodyText other path = bodyText files path ∧ fault? other path = fault? files path := by
  constructor
  · simp only [bodyText, h]
  · simp only [fault?, h]

/-! ## All files -/

/-- The `sections` with their headers and bodies. -/
theorem sections_eq (files : FileView) (width : Nat) (paths : List Path) :
    sections files width paths
      = String.join (paths.map fun path => Section.header (label path) width ++ bodyText files path) := by
  unfold sections
  congr 1
  apply List.map_congr_left
  intro path _
  exact fileSection_eq files width path

theorem nulNotices_eq (text : String) :
    nulNotices (decide (Scrub.HasNul text))
      = if '\x00' ∈ text.toList ∨ ['\\', 'x', '0', '0'] <:+: text.toList
        then [.status { kind := .error, message := "NULL characters in output" }] else [] := by
  by_cases hnul : Scrub.HasNul text
  · have hwritten : '\x00' ∈ text.toList ∨ ['\\', 'x', '0', '0'] <:+: text.toList := hnul
    rw [decide_eq_true hnul, if_pos hwritten]
    rfl
  · have hwritten : ¬ ('\x00' ∈ text.toList ∨ ['\\', 'x', '0', '0'] <:+: text.toList) := hnul
    rw [decide_eq_false hnul, if_neg hwritten]
    rfl

end Output

/-! ## The status of the job -/

namespace Core

/-- The statuses that `finished` reports, in order. -/
def statuses (c : Core) (files : FileView) : List Status :=
  (c.finished files).2.filterMap Notice.status?

/-- The state of a run whose job had another status, `s`. -/
def withStatus (c : Core) (s : Status) : Core := { c with job := c.job.setStatus s }

/-- **The last status counts**: the job's status is the last one of `statuses`, or else what it was. -/
theorem status_of_finishing {c : Core} {files : FileView} {last : Operation}
    (hlast : last = .finalize files ∨ ∃ code, last = .complete files code)
    (hok : (c.perform last).2 = .ok ()) :
    (c.perform last).1.job.status = (c.statuses files).getLast?.getD c.job.status := by
  obtain ⟨_, code, hclosed⟩ := perform_finishing hlast hok
  rw [hclosed]
  exact c.job.status_notifyAll (c.finished files).2

/-- Finishing succeeds whatever the status of the job is (`withStatus`). -/
theorem ok_withStatus {c : Core} {files : FileView} {last : Operation}
    (hlast : last = .finalize files ∨ ∃ code, last = .complete files code)
    (hok : (c.perform last).2 = .ok ()) (s : Status) : ((c.withStatus s).perform last).2 = .ok () := by
  -- the phase and the exit code decide, and they are the same
  rcases hlast with rfl | ⟨code, rfl⟩ <;> rw [perform] at hok ⊢
  · rcases c.finalize_cases files with ⟨code, hphase, hcode, _⟩ | ⟨_, _, h⟩ | ⟨_, h⟩
    · rcases (c.withStatus s).finalize_cases files with ⟨_, _, _, h⟩ | ⟨_, hnone, _⟩ | ⟨hne, _⟩
      · rw [h]
      · exact absurd (hcode.symm.trans hnone) (Option.some_ne_none code)
      · exact absurd hphase hne
    · rw [h] at hok; cases hok
    · rw [h] at hok; cases hok
  · rcases c.complete_cases files code with ⟨hphase, hcode, _⟩ | ⟨_, _, _, h⟩ | ⟨_, h⟩
    · rcases (c.withStatus s).complete_cases files code with ⟨_, _, h⟩ | ⟨_, _, hsome, _⟩ | ⟨hne, _⟩
      · rw [h]
      · exact absurd (hsome.symm.trans hcode) (Option.some_ne_none _)
      · exact absurd hphase hne
    · rw [h] at hok; cases hok
    · rw [h] at hok; cases hok

/-- **A status is left alone** if `c.statuses files = []`, and only then. -/
theorem status_kept_iff {c : Core} {files : FileView} {last : Operation}
    (hlast : last = .finalize files ∨ ∃ code, last = .complete files code)
    (hok : (c.perform last).2 = .ok ()) :
    (∀ s, ((c.withStatus s).perform last).1.job.status = s) ↔ c.statuses files = [] := by
  have hstatus : ∀ s, ((c.withStatus s).perform last).1.job.status = (c.statuses files).getLast?.getD s :=
    fun s => status_of_finishing hlast (ok_withStatus hlast hok s)
  constructor
  · intro hkept
    cases hreported : (c.statuses files).getLast? with
    | none => exact List.getLast?_eq_none_iff.mp hreported
    | some reported =>
        -- a status with another message would not be kept
        have hsame := hkept { kind := .error, message := reported.message ++ "!" }
        rw [hstatus, hreported] at hsame
        have hlength := congrArg (·.message.length) hsame
        simp at hlength
  · intro hnone s
    rw [hstatus, hnone]
    rfl

/-- **Reports are exact.** Take any files, paths, width, mark of a substitution and text. With the sections
    of the files in order the text is put together, and scrubbed it is the finished one. What finishing
    reports on the way is exactly this, in this order: the fault of each file that has one, in the order of
    the files; the caveat if there is the mark; and the error on NULs if the text put together has any.

    A file's section is its header and the body that `FileOutcome` gives, so a file that opens and cannot be
    read or is no UTF-8 leaves an empty body; and its section and report do not depend on other files.

    Whatever call finishes a run, the job's status is the last one that is reported, and if none is reported
    the one that the job had. So finishing leaves every status alone exactly if it reports none. -/
theorem notices_exact (files : FileView) (paths : List Path) (width : Nat) (replacedInvalid : Bool)
    (output : String) :
    let finished := Output.finish files paths width replacedInvalid output
    let merged := output ++ String.join (paths.map fun path =>
      Section.header (Output.label path) width ++ Output.bodyText files path)
    finished.1 = Scrub.scrub merged ∧
    finished.2 = (paths.filterMap (Output.fault? files)).map Notice.status
      ++ (if replacedInvalid then [.caveat "invalid characters in output"] else [])
      ++ (if '\x00' ∈ merged.toList ∨ ['\\', 'x', '0', '0'] <:+: merged.toList
          then [.status { kind := .error, message := "NULL characters in output" }] else []) ∧
    (∀ path, Output.FileOutcome files path (Output.bodyText files path) (Output.fault? files path)) ∧
    (∀ other path, other path = files path →
      Output.bodyText other path = Output.bodyText files path ∧
      Output.fault? other path = Output.fault? files path) ∧
    (∀ (c : Core) (last : Operation),
      (last = .finalize files ∨ ∃ code, last = .complete files code) → (c.perform last).2 = .ok () →
      (c.perform last).1.job.status = (c.statuses files).getLast?.getD c.job.status ∧
      ((∀ s, ((c.withStatus s).perform last).1.job.status = s) ↔ c.statuses files = [])) := by
  intro finished merged
  have hmerged : merged = output ++ Output.sections files width paths := by rw [Output.sections_eq]
  refine ⟨?_, ?_, Output.fileOutcome files, fun other path h => Output.outcome_congr h, ?_⟩
  · rw [hmerged]
    exact Output.finish_fst files paths width replacedInvalid output
  · show (Output.finish files paths width replacedInvalid output).2 = _
    rw [Output.finish_snd, ← hmerged, Output.nulNotices_eq]
    rfl
  · intro c last hlast hok
    exact ⟨status_of_finishing hlast hok, status_kept_iff hlast hok⟩

/-- A file that is no UTF-8 (`FF`), one with a NUL (`62 00`) and a missing one, after octets that were
    substituted. -/
theorem notices_exact_of_three :
    (Output.finish
        (fun path =>
          if path = .ofString "a" then some { data := [0xFF] }
          else if path = .ofString "b" then some { data := [0x62, 0] } else none)
        [.ofString "a", .ofString "b", .ofString "c"] 1 true "\uFFFD").2
      = [.status (.ofError "non-unicode characters in output"), .status (.ofError "FILE TIMEOUT"),
          .caveat "invalid characters in output", .status (.ofError "NULL characters in output")] :=
  (notices_exact _ _ _ _ _).2.1.trans (by decide +kernel)

end Core

end TestHarness
