import TestHarness.Proofs.Core.Notices
import TestHarness.Proofs.Local.Life
import TestHarness.Proofs.Timer

/-!
# What a wait leaves behind

A wait that sees the child's end has the last word on a run: it stops the timer, records the exit code and
finishes the output. Four of its steps may set the status (the deadline, the child's output, the
redirected files, the repair of NULs), each replaces what an earlier one has set, and `wait_outcome` says
which one is left for every combination of them.
-/

namespace TestHarness

namespace LocalRunner

/-! ## Before completing -/

/-- The text of a run that ended, before its repair: `r.core.output` from before, what the child wrote, and
    the `Output.sections` of the redirected files in declared order. -/
def mergedText (r : LocalRunner) (ending : Ending) : String :=
  r.core.output ++ ending.captured.readText.1
    ++ Output.sections ending.files r.core.headerWidth r.core.redirectedFiles

/-- The `mergedText` with every part written out. -/
theorem mergedText_eq (r : LocalRunner) (ending : Ending) :
    r.mergedText ending
      = r.core.output ++ ending.captured.text
        ++ String.join ((r.core.job.tester.redirectedFiles r.core.options).map fun path =>
            String.ofList (List.replicate r.core.options.output.headerWidth.toNat '#') ++ "\n"
              ++ ("Redirected output " ++ path.display) ++ ":\n"
              ++ String.ofList (List.replicate r.core.options.output.headerWidth.toNat '#') ++ "\n"
              ++ Output.bodyText ending.files path) := by
  rw [mergedText, Stream.readText_eq, Output.sections_eq]
  simp only [Output.header_label]
  rfl

theorem core_reportTimeout (r : LocalRunner) :
    r.reportTimeout.core.output = r.core.output ∧ r.reportTimeout.core.options = r.core.options ∧
    r.reportTimeout.core.job.tester = r.core.job.tester ∧
    r.reportTimeout.core.job.status = (if r.timedOut then timeoutStatus else r.core.job.status) := by
  rw [reportTimeout_eq]
  by_cases h : r.timedOut = true
  · rw [if_pos h, if_pos h]; exact ⟨rfl, rfl, rfl, rfl⟩
  · rw [if_neg h, if_neg h]; exact ⟨rfl, rfl, rfl, rfl⟩

theorem core_settled {r : LocalRunner} (hcap : r.capturing = true) (captured : Stream) :
    (r.settled captured).core
      = (r.reportTimeout.core.readStream captured).1.withText captured.text := by
  have hcap' : r.reportTimeout.capturing = true := r.capturing_reportTimeout.trans hcap
  rw [settled, gathered, if_pos hcap']

/-- The text that is repaired at the end, `Core.mergedText` of the `settled` runner, is the `mergedText`. -/
theorem mergedText_settled {r : LocalRunner} (hcap : r.capturing = true) (ending : Ending) :
    (r.settled ending.captured).core.mergedText ending.files = r.mergedText ending := by
  obtain ⟨houtput, hoptions, htester, _⟩ := r.core_reportTimeout
  rw [core_settled hcap]
  show r.reportTimeout.core.output ++ ending.captured.text
      ++ Output.sections ending.files r.reportTimeout.core.options.output.headerWidth.toNat
          ((r.reportTimeout.core.job.notifyAll _).tester.redirectedFiles
            r.reportTimeout.core.options) = _
  rw [Job.tester_notifyAll, houtput, hoptions, htester, mergedText, Stream.readText_eq]
  rfl

/-- Reading the child's output replaces the status by `captured.fault?`, if it cannot be read or is not
    UTF-8. -/
theorem status_settled {r : LocalRunner} (hcap : r.capturing = true) (captured : Stream) :
    (r.settled captured).core.job.status
      = captured.fault?.getD (if r.timedOut then timeoutStatus else r.core.job.status) := by
  rw [core_settled hcap]
  show (r.reportTimeout.core.job.notifyAll captured.readText.2).status = _
  rw [Job.status_notifyAll, Stream.readText_eq, r.core_reportTimeout.2.2.2]
  cases captured.fault? with
  | none => rfl
  | some s => rfl

theorem redirectedFiles_settled {r : LocalRunner} (hcap : r.capturing = true) (captured : Stream) :
    (r.settled captured).core.redirectedFiles = r.core.redirectedFiles := by
  obtain ⟨_, hoptions, htester, _⟩ := r.core_reportTimeout
  rw [core_settled hcap]
  show (r.reportTimeout.core.job.notifyAll _).tester.redirectedFiles r.reportTimeout.core.options = _
  rw [Job.tester_notifyAll, hoptions, htester]
  rfl

/-! ## The outcome -/

/-- **What may be the final status**, the last step to set one first: the repair of NULs, the last faulty
    file, the child's output, the deadline (`timeoutStatus`). -/
def statusCandidates (r : LocalRunner) (ending : Ending) : List (Option Status) :=
  [if Scrub.HasNul (r.mergedText ending) then some Output.nulCharacters else none,
    (r.core.redirectedFiles.filterMap (Output.fault? ending.files)).getLast?,
    ending.captured.fault?,
    if r.timedOut then some timeoutStatus else none]

theorem status_closed_settled {r : LocalRunner} (hcap : r.capturing = true) (code : Int)
    (ending : Ending) :
    (((r.settled ending.captured).core.withCode code).closed ending.files).job.status
      = ((r.statusCandidates ending).findSome? id).getD r.core.job.status := by
  have hmerged : ((r.settled ending.captured).core.withCode code).mergedText ending.files
      = r.mergedText ending := mergedText_settled hcap ending
  have hfiles : ((r.settled ending.captured).core.withCode code).redirectedFiles
      = r.core.redirectedFiles := redirectedFiles_settled hcap ending.captured
  have hstatus : ((r.settled ending.captured).core.withCode code).job.status = _ :=
    status_settled hcap ending.captured
  rw [Core.status_closed, hmerged, hfiles, hstatus, statusCandidates]
  -- only whether there is a fault counts from here on, and not which file has it
  generalize (r.core.redirectedFiles.filterMap (Output.fault? ending.files)).getLast? = fileFault
  by_cases hnul : Scrub.HasNul (r.mergedText ending)
  · rw [if_pos hnul, if_pos hnul]; rfl
  · rw [if_neg hnul, if_neg hnul]
    cases fileFault with
    | some s => rfl
    | none =>
        cases ending.captured.fault? with
        | some s => rfl
        | none => cases r.timedOut <;> rfl

/-- **Outcome of a wait.** Take a runner that a successful start and any calls after it have left spawned
    and without an exit code, and looks of which the last one sees the child's end. The wait succeeds. The
    run is completed, the timer stands still, the exit code is the child's or minus the number of the
    signal that ended it, the output is the scrubbed text of all parts in order, and the status is the
    first of these that there is: NULs in the merged text, the fault of the last faulty file, the fault of
    the child's output, the passed deadline, and the status from before.

    The child's output is what `ReadsAs` says of it, and each file what `FileOutcome` says. -/
theorem wait_outcome {r₀ r : LocalRunner} {timer₀ : Timer} {start : Start} {now : Duration}
    {calls : List Call} (hspawn : (r₀.spawn timer₀ start now).2.2 = .ok ())
    (hcalls : (r₀.spawn timer₀ start now).1.run calls = some r)
    (hphase : r.core.phase = .spawned) (hcode : r.core.exitCode = none)
    {polls : List Look} {last : Look} {status : ExitStatus}
    (hpolls : ∀ poll ∈ polls, poll.sight = .running) (hlast : last.sight = .ended status)
    (timer : Timer) (ending : Ending) :
    let paths := r.core.job.tester.redirectedFiles r.core.options
    let rule := String.ofList (List.replicate r.core.options.output.headerWidth.toNat '#')
    let childText := ending.captured.text
    let childFault := ending.captured.fault?
    let body := Output.bodyText ending.files
    let fault := Output.fault? ending.files
    let merged := r.core.output ++ childText ++ String.join (paths.map fun path =>
      rule ++ "\n" ++ ("Redirected output " ++ path.display) ++ ":\n" ++ rule ++ "\n" ++ body path)
    ending.captured.ReadsAs childText childFault ∧
    (∀ path, Output.FileOutcome ending.files path (body path) (fault path)) ∧
    ∃ r', r.wait timer (polls ++ [last]) ending = some (r', timer.stop ending.now, .ok ()) ∧
      r'.core.phase = .completed ∧
      ((timer.stop ending.now).started = none ∨ (timer.stop ending.now).stopped ≠ none) ∧
      r'.core.exitCode = some (match status with
        | .exited code => (code : Int)
        | .signalled number => -(number : Int)) ∧
      r'.core.output = Scrub.scrub merged ∧
      r'.timedOut = (r.timedOut || polls.any (·.expired)) ∧
      r'.core.job.status =
        ([if '\x00' ∈ merged.toList ∨ ['\\', 'x', '0', '0'] <:+: merged.toList
            then some { kind := .error, message := "NULL characters in output" } else none,
          (paths.filterMap fault).getLast?,
          childFault,
          if r'.timedOut then some { kind := .timeout, message := "TIMEOUT" } else none].findSome? id).getD
          r.core.job.status := by
  intro paths rule childText childFault body fault merged
  refine ⟨ending.captured.readsAs, Output.fileOutcome ending.files, ?_⟩
  have hheld : r.Held := held_of_spawn hspawn hcalls
  obtain ⟨pid, hchild⟩ := hheld.child hcode
  have hw : Wait.Honest { runner := r } := fun h => absurd rfl h
  obtain ⟨hverdict, hrunner⟩ := watch_ended hw hchild hpolls hlast
  -- the runner at the end of the looks, with its child gone
  generalize hend : (r.withTimedOut (r.timedOut || polls.any (·.expired))).released = s at hrunner
  have hwait : r.wait timer (polls ++ [last]) ending = some (s.conclude timer status ending) := by
    rw [wait, Core.ensureSpawned, if_pos hphase]
    generalize watch { runner := r } (polls ++ [last]) = result at *
    obtain ⟨w, signals, verdict⟩ := result
    cases hverdict
    exact congrArg (fun r => some (conclude r timer status ending)) hrunner
  have hcap : s.capturing = true := by rw [← hend]; exact hheld.capture hcode
  have hmerged : s.mergedText ending = r.mergedText ending := by rw [← hend]; rfl
  have hwritten : r.mergedText ending = merged := r.mergedText_eq ending
  have hnul : Scrub.HasNul merged ↔
      '\x00' ∈ merged.toList ∨ ['\\', 'x', '0', '0'] <:+: merged.toList := Iff.rfl
  have hphase' : s.core.phase = .spawned := by rw [← hend]; exact hphase
  rcases conclude_cases hphase' timer status ending with ⟨_, hc⟩ | ⟨existing, hsome, _⟩
  · refine ⟨_, by rw [hwait, hc], rfl, ?_, ?_, ?_, ?_, ?_⟩
    · exact (timer.stop ending.now).isRunning_eq_false_iff.mp (timer.isRunning_stop ending.now)
    · show some status.code = _
      cases status <;> rfl
    · rw [Core.output_closed, ← hwritten, ← hmerged, ← mergedText_settled hcap]; rfl
    · rw [timedOut_settled, ← hend]; rfl
    · rw [status_closed_settled hcap, timedOut_settled, statusCandidates, hmerged, ← hend, hwritten,
        if_congr hnul (rfl : some Output.nulCharacters = _) rfl]
      rfl
  · rw [← hend] at hsome
    exact absurd (hcode.symm.trans hsome) (Option.some_ne_none existing).symm

/-- A child that is past its deadline, writes the octet `0xFF`, which is no UTF-8, and is ended by signal
    `15`, in a run whose redirected file is missing: three faults, and `FILE TIMEOUT` is the one that is
    left. -/
theorem wait_outcome_missing_file :
    ∃ r', LocalRunner.wait
        { core := { job := { tester := Tester.plan { name := "t", command := .ofProgram []
                                                     redirectOutput := true } }
                    options := { output := { headerWidth := 1 } }, phase := .spawned, output := "a\\x0" }
          child := some 7, capturing := true, killed := true }
        {} ([{ sight := .running, expired := true }] ++ [{ sight := .ended (.signalled 15) }])
        { captured := { data := [0xFF] }, files := fun _ => none, now := 5 }
          = some (r', {}, .ok ()) ∧
      r'.core.exitCode = some (-15) ∧ r'.timedOut = true ∧
      r'.core.output = "a\\x0#\nRedirected output ./t.processor.0:\n#\nFILE UNAVAILABLE\n" ∧
      r'.core.job.status = { kind := .error, message := "FILE TIMEOUT" } := by
  obtain ⟨_, _, r', hwait, _, _, hcode, houtput, htimed, hstatus⟩ := @wait_outcome
    { core := { job := { tester := Tester.plan { name := "t", command := .ofProgram []
                                                 redirectOutput := true } }
                options := { output := { headerWidth := 1 } }, output := "a\\x0" } }
    _ {} (.started 7) 0 [.kill] rfl rfl rfl rfl
    [{ sight := .running, expired := true }] { sight := .ended (.signalled 15) } _ (by decide) rfl
    {} { captured := { data := [0xFF] }, files := fun _ => none, now := 5 }
  refine ⟨r', hwait, hcode, htimed, ?_, ?_⟩
  · rw [houtput]
    decide +kernel
  · rw [hstatus, htimed]
    decide +kernel

end LocalRunner

end TestHarness
