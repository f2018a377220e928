import TestHarness.Proofs.Core.Calls

/-!
# Runs of calls

A run makes any calls of the shared state in any order, and some of them fail. Its *transcript* pairs
each call with its result, so that what was accepted can be told from what was refused.

Until the output is finished it is the accepted texts in order (`run_output`); from then on nothing
changes it (`run_completed`). So the finished output is a function of the accepted texts and of the
files at the moment of finishing (`output_of_finalized`), however the calls were mixed.
-/

namespace TestHarness

/-- **The accepted texts** of calls with their results, in order (`acceptedText?`). -/
def accepted (calls : List (Operation × Except RunnerError Unit)) : List String :=
  calls.filterMap acceptedText?

theorem join_accepted_cons (call : Operation × Except RunnerError Unit)
    (calls : List (Operation × Except RunnerError Unit)) :
    String.join (accepted (call :: calls))
      = (acceptedText? call).getD "" ++ String.join (accepted calls) := by
  unfold accepted
  cases h : acceptedText? call with
  | none => rw [List.filterMap_cons_none h]; exact String.empty_append.symm
  | some text => rw [List.filterMap_cons_some h, String.join_cons]; rfl

namespace Core

/-- The state of a run before its first call: phase `.created`, and no output. -/
def fresh (job : Job) (options : Options) : Core := { job, options }

/-- The calls of a run with their results, as `perform` gives them. -/
def transcript (c : Core) : List Operation → List (Operation × Except RunnerError Unit)
  | [] => []
  | operation :: rest =>
    (operation, (c.perform operation).2) :: (c.perform operation).1.transcript rest

theorem run_cons (c : Core) (operation : Operation) (rest : List Operation) :
    c.run (operation :: rest) = (c.perform operation).1.run rest := rfl

theorem run_append (c : Core) (first rest : List Operation) :
    c.run (first ++ rest) = (c.run first).run rest :=
  List.foldl_append

/-! ## One change -/

/-- No `Change` touches `job.tester` or `options`, and so none changes which files are redirected. -/
theorem Change.frame {c c' : Core} {text : Option String} (h : Change c text c') :
    c'.job.tester = c.job.tester ∧ c'.options = c.options := by
  cases h with
  | same => exact ⟨rfl, rfl⟩
  | noted _ => exact ⟨rfl, rfl⟩
  | spawned _ => exact ⟨rfl, rfl⟩
  | appended _ _ _ => exact ⟨rfl, rfl⟩
  | told notices => exact ⟨c.job.tester_notifyAll notices, rfl⟩
  | coded _ _ _ => exact ⟨rfl, rfl⟩
  | closed _ _ _ _ => exact ⟨c.job.tester_notifyAll _, rfl⟩

/-- **A finished run stays finished**: after a `Change` of a `.completed` run the output is what it was. -/
theorem Change.of_completed {c c' : Core} {text : Option String} (h : Change c text c')
    (hdone : c.phase = .completed) : c'.phase = .completed ∧ c'.output = c.output := by
  cases h with
  | same => exact ⟨hdone, rfl⟩
  | noted _ => exact ⟨hdone, rfl⟩
  | spawned hphase => rw [hdone] at hphase; exact absurd hphase (by decide)
  | appended _ _ hopen => exact absurd hdone hopen
  | told _ => exact ⟨hdone, rfl⟩
  | coded _ hphase _ => rw [hdone] at hphase; exact absurd hphase (by decide)
  | closed _ _ hphase _ => rw [hdone] at hphase; exact absurd hphase (by decide)

/-- No `Change` goes back to phase `.created`. -/
theorem Change.of_created {c c' : Core} {text : Option String} (h : Change c text c')
    (hfirst : c'.phase = .created) : c.phase = .created := by
  cases h with
  | same => exact hfirst
  | noted _ => exact hfirst
  | spawned hphase => exact hphase
  | appended _ _ _ => exact hfirst
  | told _ => exact hfirst
  | coded _ _ _ => exact hfirst
  | closed _ _ _ _ => exact absurd hfirst (by show ¬ Phase.completed = _; decide)

/-- No `Change` takes an exit code away. -/
theorem Change.of_noCode {c c' : Core} {text : Option String} (h : Change c text c')
    (hnone : c'.exitCode = none) : c.exitCode = none := by
  cases h with
  | same => exact hnone
  | noted _ => exact hnone
  | spawned _ => exact hnone
  | appended _ _ _ => exact hnone
  | told _ => exact hnone
  | coded _ _ _ => exact absurd hnone (Option.some_ne_none _)
  | closed _ _ _ _ => exact absurd hnone (Option.some_ne_none _)

/-- **Before the end the output grows** by the `text` of the `Change`, if it has one. -/
theorem Change.output_eq {c c' : Core} {text : Option String} (h : Change c text c')
    (hopen : c'.phase ≠ .completed) : c'.output = c.output ++ text.getD "" := by
  cases h with
  | same => exact String.append_empty.symm
  | noted _ => exact String.append_empty.symm
  | spawned _ => exact String.append_empty.symm
  | appended text _ _ => rfl
  | told _ => exact String.append_empty.symm
  | coded _ _ _ => exact String.append_empty.symm
  | closed _ _ _ _ => exact absurd rfl hopen

/-! ## Whole runs -/

theorem run_frame (c : Core) (calls : List Operation) :
    (c.run calls).job.tester = c.job.tester ∧ (c.run calls).options = c.options := by
  induction calls generalizing c with
  | nil => exact ⟨rfl, rfl⟩
  | cons operation rest ih =>
      obtain ⟨htester, hoptions⟩ := (c.perform_change operation).frame
      rw [run_cons, (ih _).1, (ih _).2]
      exact ⟨htester, hoptions⟩

theorem run_completed {c : Core} (hdone : c.phase = .completed) (calls : List Operation) :
    (c.run calls).phase = .completed ∧ (c.run calls).output = c.output := by
  induction calls generalizing c with
  | nil => exact ⟨hdone, rfl⟩
  | cons operation rest ih =>
      obtain ⟨hphase, houtput⟩ := (c.perform_change operation).of_completed hdone
      obtain ⟨hphase', houtput'⟩ := ih hphase
      exact ⟨hphase', houtput'.trans houtput⟩

/-- **The output of a run that is not finished** is the `accepted` texts in the order of their calls. -/
theorem run_output {c : Core} {calls : List Operation} (hopen : (c.run calls).phase ≠ .completed) :
    (c.run calls).output = c.output ++ String.join (accepted (c.transcript calls)) := by
  induction calls generalizing c with
  | nil => exact String.append_empty.symm
  | cons operation rest ih =>
      rw [run_cons] at hopen ⊢
      have hstep : (c.perform operation).1.phase ≠ .completed := fun hdone =>
        hopen (run_completed hdone rest).1
      rw [ih hopen, (c.perform_change operation).output_eq hstep, transcript, join_accepted_cons,
        String.append_assoc]

/-! ## The finished output -/

/-- A `finalize` or `complete` that succeeds turns the state that it is made in into a `closed` one, with an
    exit code. -/
theorem perform_finishing {c : Core} {files : FileView} {last : Operation}
    (hlast : last = .finalize files ∨ ∃ code, last = .complete files code)
    (hok : (c.perform last).2 = .ok ()) :
    c.phase = .spawned ∧ ∃ code, (c.perform last).1 = (c.withCode code).closed files := by
  rcases hlast with rfl | ⟨code, rfl⟩
  · rw [perform] at hok ⊢
    rcases c.finalize_cases files with ⟨code, hphase, hcode, h⟩ | ⟨_, _, h⟩ | ⟨_, h⟩
    · exact ⟨hphase, code, by rw [h, withCode_eq_self hcode]⟩
    · rw [h] at hok; cases hok
    · rw [h] at hok; cases hok
  · rw [perform] at hok ⊢
    rcases c.complete_cases files code with ⟨hphase, _, h⟩ | ⟨_, _, _, h⟩ | ⟨_, h⟩
    · exact ⟨hphase, code, by rw [h]⟩
    · rw [h] at hok; cases hok
    · rw [h] at hok; cases hok

/-- **The finished output.** A run that makes any calls on a fresh state, and then one that finishes the
    output with success, has from then on this output, whatever calls follow: `scrub` of the `accepted` texts
    in the order of their calls, and for each redirected file in declared order its scrubbed `header` and its
    scrubbed body. The body is the text of the file's stream, or says that the file is missing. -/
theorem output_of_finalized (job : Job) (options : Options) (before after : List Operation)
    (files : FileView) (last : Operation)
    (hlast : last = .finalize files ∨ ∃ code, last = .complete files code)
    (hok : (((fresh job options).run before).perform last).2 = .ok ()) :
    ((fresh job options).run (before ++ last :: after)).output
      = Scrub.scrub (String.join (accepted ((fresh job options).transcript before)))
        ++ String.join ((job.tester.redirectedFiles options).map fun path =>
            Scrub.scrub (Section.header (Output.label path) options.output.headerWidth.toNat)
            ++ Scrub.scrub ((files path).elim "FILE UNAVAILABLE\n" fun s => s.readText.1)) := by
  rw [run_append, run_cons]
  obtain ⟨hphase, code, hclosed⟩ := perform_finishing hlast hok
  obtain ⟨htester, hoptions⟩ := (fresh job options).run_frame before
  have hopen : ((fresh job options).run before).phase ≠ .completed := by rw [hphase]; decide
  have htext := run_output hopen
  -- from here on the state before the last call stands for the run that led to it
  generalize (fresh job options).run before = c at *
  have hdone : ((c.withCode code).closed files).phase = .completed := rfl
  have hfiles : (c.withCode code).redirectedFiles = job.tester.redirectedFiles options := by
    show c.job.tester.redirectedFiles c.options = _
    rw [htester, hoptions]; rfl
  have hwidth : (c.withCode code).headerWidth = options.output.headerWidth.toNat := by
    show c.options.output.headerWidth.toNat = _
    rw [hoptions]; rfl
  have hsections : ((c.withCode code).closed files).output
      = Scrub.scrub c.output ++ Output.scrubbedSections files options.output.headerWidth.toNat
          (job.tester.redirectedFiles options) := by
    rw [output_closed, mergedText, hfiles, hwidth, Output.scrub_append_sections]; rfl
  rw [hclosed, (run_completed hdone after).2, hsections, htext, Output.scrubbedSections]
  simp only [Output.bodyText_eq]
  rw [show (fresh job options).output = "" from rfl, String.empty_append]

/-- A run whose text stops inside an escape, with empty rules: the `0` that would end the escape does not
    come from a header. The first rank's file holds a NUL and no line end, the second one is missing. -/
theorem output_of_two_ranks :
    ((fresh { tester := Tester.plan { name := "r\\x00", command := .ofProgram [], redirectOutput := true,
                                      processors := some 2 } }
        { output := { headerWidth := 0 } }).run
      ([.markSpawned, .append "\\x0", .setExitCode 3, .markSpawned, .append "\x00"]
        ++ .finalize (fun path =>
            if path = .ofString "./r\\x00.processor.0" then some { data := [0x61, 0] } else none)
        :: [.append "late"])).output
      = "\\x0NULL\nRedirected output ./rNULL.processor.0:\n\naNULL\n"
        ++ "\nRedirected output ./rNULL.processor.1:\n\nFILE UNAVAILABLE\n" :=
  (output_of_finalized _ _ _ _ _ _ (Or.inl rfl) (by decide +kernel)).trans (by decide +kernel)

end Core

end TestHarness
