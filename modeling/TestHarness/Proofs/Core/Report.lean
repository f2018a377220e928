import TestHarness.Proofs.Core.Runs
import TestHarness.Proofs.Json.Literal

/-!
# Output that every report can carry

A completed run has an output without NULs that any JSON report can quote and give back
(`reportable_of_completed`), whatever the test wrote, however its output was pieced together, whatever its
files hold and whatever they are called.

NULs come from everywhere: from the text of the test, from the border of two pieces of it, from the bodies
of redirected files and from the paths in their headers. Finishing repairs the text when all of it is
there, so one argument covers them all: nothing comes out of a repair with a NUL in it
(`Scrub.not_hasNul_scrub`). Reading back needs no repair; every text does (`Json.ofText?_write`).
-/

namespace TestHarness

/-- **`Reportable`** — a text that a report can carry. -/
structure Reportable (text : String) : Prop where
  noNul : '\x00' ∉ text.toList
  noEscape : ¬ ['\\', 'x', '0', '0'] <:+: text.toList
  /-- Its JSON literal reads back as `text`. -/
  readsBack : Json.ofText? (Json.Literal.write text) = some (.string (some text))

theorem reportable_scrub (text : String) : Reportable (Scrub.scrub text) := by
  obtain ⟨hnul, hescape⟩ := not_or.mp (Scrub.not_hasNul_scrub text)
  exact ⟨hnul, hescape, Json.ofText?_write _⟩

/-- **Finished output** is `Reportable`, whatever the paths of the files are. -/
theorem Output.reportable_finish (files : FileView) (paths : List Path) (width : Nat)
    (replacedInvalid : Bool) (output : String) :
    Reportable (finish files paths width replacedInvalid output).1 := by
  rw [finish_fst]
  exact reportable_scrub _

namespace Core

/-- A `Change` that completes the run finishes the output, and no later change touches it. -/
theorem Change.reportable {c c' : Core} {text : Option String} (h : Change c text c')
    (hc : c.phase = .completed → Reportable c.output) (hdone : c'.phase = .completed) :
    Reportable c'.output := by
  cases h with
  | same => exact hc hdone
  | noted _ => exact hc hdone
  | spawned _ => cases hdone
  | appended _ _ hopen => exact absurd hdone hopen
  | told _ => exact hc hdone
  | coded _ hphase _ =>
      have hdone : c.phase = .completed := hdone
      rw [hphase] at hdone
      cases hdone
  | closed code files _ _ =>
      exact Output.reportable_finish files c.redirectedFiles c.headerWidth c.replacedInvalid c.output

theorem reportable_run {c : Core} (hc : c.phase = .completed → Reportable c.output)
    (calls : List Operation) (hdone : (c.run calls).phase = .completed) :
    Reportable (c.run calls).output := by
  induction calls generalizing c with
  | nil => exact hc hdone
  | cons operation rest ih => exact ih ((c.perform_change operation).reportable hc) hdone

/-- **The output of a completed run**, whatever calls led to its completion and whatever calls came after:
    no U+0000, no `\x00`, and its JSON literal reads back as the same output. -/
theorem reportable_of_completed (job : Job) (options : Options) (calls : List Operation)
    (hdone : ((fresh job options).run calls).phase = .completed) :
    Reportable ((fresh job options).run calls).output := by
  have hfresh : (fresh job options).phase = .completed → Reportable (fresh job options).output := nofun
  exact reportable_run hfresh calls hdone

/-- A run with NULs from everywhere: the texts `\x0` and `0`, which only together are an escape, octets, a
    name and a directory that hold NULs, and a file with one. -/
theorem reportable_of_all_sources :
    let c := (fresh { tester := Tester.plan { name := "r\\x00", command := .ofProgram [],
                                              redirectOutput := true,
                                              testDir := some ⟨[0x5C, 0x78, 0x30, 0x30, 0xFF, 0]⟩ } }
        { output := { headerWidth := 0 } }).run
      [.append "\\x0", .markSpawned, .appendBytes [0x30, 0], .complete (fun _ => some { data := [0] }) 3]
    c.output = "NULLNULL\nRedirected output NULL\uFFFDNULL/rNULL.processor.0:\n\nNULL\n" ∧
    Reportable c.output :=
  ⟨by decide +kernel, reportable_of_completed _ _ _ rfl⟩

end Core

end TestHarness
