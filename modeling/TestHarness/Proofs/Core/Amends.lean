import TestHarness.Proofs.Core.Refusals

/-!
# What a call does to the shared state

A runner's calls reach the shared state in several ways: directly, through a start, and through a wait
that adds a text and finishes the output in one go. All of them meet one contract (`Amends`), which is
stated for the text that a call adds and for the files with which it finishes the output. Whoever follows
the output through a history of calls needs the contract only, and not the calls.
-/

namespace TestHarness

/-- The files of the moment at which a `finalize` or a `complete` with that result has finished the output. -/
def finishedWith? : Operation × Except RunnerError Unit → Option FileView
  | (.finalize files, .ok ()) => some files
  | (.complete files _, .ok ()) => some files
  | _ => none

theorem finishing_of_finishedWith? {operation : Operation} {result : Except RunnerError Unit}
    {files : FileView} (h : finishedWith? (operation, result) = some files) :
    result = .ok () ∧ (operation = .finalize files ∨ ∃ code, operation = .complete files code) := by
  cases result with
  | error e => cases operation <;> cases h
  | ok u =>
      refine ⟨rfl, ?_⟩
      cases operation with
      | finalize files' => cases h; exact Or.inl rfl
      | complete files' code => cases h; exact Or.inr ⟨code, rfl⟩
      | _ => cases h

namespace Core

/-- **`Amends`** — what a call may do to the shared state, given the `text` that it adds and the `files` with
    which it finishes the output, if it does. -/
structure Amends (c : Core) (text : Option String) (files : Option FileView) (c' : Core) : Prop where
  tester : c'.job.tester = c.job.tester
  options : c'.options = c.options
  begun : c.phase ≠ .created → c'.phase ≠ .created
  grown : files = none → c.phase ≠ .completed →
    c'.phase ≠ .completed ∧ c'.output = c.output ++ text.getD ""
  finished : ∀ view, files = some view → c.phase = .spawned ∧ c'.phase = .completed ∧
    c'.output = Scrub.scrub (c.output ++ text.getD ""
      ++ Output.sections view c.headerWidth c.redirectedFiles)
  done : c.phase = .completed → text = none ∧ files = none ∧
    c'.phase = .completed ∧ c'.exitCode = c.exitCode ∧ c'.output = c.output

theorem amends_self (c : Core) : Amends c none none c where
  tester := rfl
  options := rfl
  begun := id
  grown := fun _ hopen => ⟨hopen, String.append_empty.symm⟩
  finished := nofun
  done := fun hdone => ⟨rfl, rfl, hdone, rfl, rfl⟩

theorem amends_spawned {c : Core} (hphase : c.phase = .created) :
    Amends c none none { c with phase := .spawned } where
  tester := rfl
  options := rfl
  begun := fun _ => nofun
  grown := fun _ _ => ⟨nofun, String.append_empty.symm⟩
  finished := nofun
  done := fun hdone => by rw [hphase] at hdone; cases hdone

theorem amends_notify (c : Core) (notice : Notice) :
    Amends c none none { c with job := c.job.notify notice } where
  tester := c.job.tester_notify notice
  options := rfl
  begun := id
  grown := fun _ hopen => ⟨hopen, String.append_empty.symm⟩
  finished := nofun
  done := fun hdone => ⟨rfl, rfl, hdone, rfl, rfl⟩

/-- **Finishing** what has been amended, all in one call: `withCode`, then `closed`. -/
theorem Amends.closed {c d : Core} {text : Option String} (h : Amends c text none d)
    (hphase : c.phase = .spawned) (code : Int) (files : FileView) :
    Amends c text (some files) ((d.withCode code).closed files) where
  tester := by
    show (d.job.notifyAll _).tester = _
    rw [Job.tester_notifyAll, h.tester]
  options := h.options
  begun := by
    intro _
    show ¬ Phase.completed = Phase.created
    decide
  grown := nofun
  finished := by
    intro view hview
    cases hview
    have hopen : c.phase ≠ .completed := by rw [hphase]; decide
    have houtput : d.output = c.output ++ text.getD "" := (h.grown rfl hopen).2
    have hwidth : (d.withCode code).headerWidth = c.headerWidth := by
      show d.options.output.headerWidth.toNat = _
      rw [h.options]; rfl
    have hpaths : (d.withCode code).redirectedFiles = c.redirectedFiles := by
      show d.job.tester.redirectedFiles d.options = _
      rw [h.tester, h.options]; rfl
    refine ⟨hphase, rfl, ?_⟩
    rw [output_closed, mergedText, hwidth, hpaths, ← houtput]
    rfl
  done := fun hdone => by rw [hphase] at hdone; cases hdone

/-- A call that does not finish the output, `finishedWith? = none`, does not complete the run. -/
theorem open_perform {c : Core} {operation : Operation} (hopen : c.phase ≠ .completed)
    (h : finishedWith? (operation, (c.perform operation).2) = none) :
    (c.perform operation).1.phase ≠ .completed := by
  have hstarted : Phase.spawned ≠ Phase.completed := by decide
  -- only the two finishing calls can complete the run, and then they say so
  cases operation with
  | markSpawned =>
      rcases c.markSpawned_cases with ⟨_, hm⟩ | ⟨_, hm⟩ <;> rw [perform, hm]
      · exact hstarted
      · exact hopen
  | ensureSpawned operation => exact hopen
  | append text => rcases c.append_cases text with ⟨_, ha⟩ | ⟨_, ha⟩ <;> rw [perform, ha] <;> exact hopen
  | appendBytes bytes =>
      have hopen' : (c.decoding bytes).phase ≠ .completed := by rw [phase_decoding]; exact hopen
      rw [perform, appendBytes_eq]
      rcases (c.decoding bytes).append_cases (Utf8.decodeLossy bytes) with ⟨_, ha⟩ | ⟨_, ha⟩ <;>
        rw [ha] <;> exact hopen'
  | readStream stream => exact hopen
  | setExitCode code =>
      rcases c.setExitCode_cases code with ⟨_, _, hs⟩ | ⟨_, _, _, hs⟩ | ⟨_, hs⟩ <;> rw [perform, hs] <;>
        exact hopen
  | finalize files =>
      rcases c.finalize_cases files with ⟨_, _, _, hf⟩ | ⟨_, _, hf⟩ | ⟨_, hf⟩ <;> rw [perform, hf] at h ⊢
      · cases h
      · exact hopen
      · exact hopen
  | complete files code =>
      rcases c.complete_cases files code with ⟨_, _, hc⟩ | ⟨_, _, _, hc⟩ | ⟨_, hc⟩ <;>
        rw [perform, hc] at h ⊢
      · cases h
      · exact hopen
      · exact hopen

/-- A completed run accepts no text and is not finished again: `lateAnswer` has neither `acceptedText?` nor
    `finishedWith?`. -/
theorem nothing_of_lateAnswer (operation : Operation) :
    acceptedText? (operation, operation.lateAnswer) = none ∧
    finishedWith? (operation, operation.lateAnswer) = none := by
  cases operation <;> exact ⟨rfl, rfl⟩

/-- **A direct call** amends the shared state by its `acceptedText?` and its `finishedWith?`. -/
theorem amends_perform (c : Core) (operation : Operation) :
    Amends c (acceptedText? (operation, (c.perform operation).2))
      (finishedWith? (operation, (c.perform operation).2)) (c.perform operation).1 := by
  have hchange := c.perform_change operation
  cases hfiles : finishedWith? (operation, (c.perform operation).2) with
  | some files =>
      obtain ⟨hok, hlast⟩ := finishing_of_finishedWith? hfiles
      obtain ⟨hphase, code, hclosed⟩ := perform_finishing hlast hok
      have htext : acceptedText? (operation, (c.perform operation).2) = none := by
        rw [hok]
        rcases hlast with rfl | ⟨_, rfl⟩ <;> rfl
      rw [hclosed, htext]
      exact c.amends_self.closed hphase code files
  | none =>
      refine ⟨hchange.frame.1, hchange.frame.2, ?_, ?_, nofun, ?_⟩
      · intro hbegun hfirst
        exact hbegun (hchange.of_created hfirst)
      · intro _ hopen
        have hopen' := open_perform hopen hfiles
        exact ⟨hopen', hchange.output_eq hopen'⟩
      · intro hdone
        obtain ⟨hanswer, late, hstate⟩ := perform_of_completed hdone operation
        rw [hanswer, hstate]
        exact ⟨(nothing_of_lateAnswer operation).1, rfl, hdone, rfl, rfl⟩

end Core

end TestHarness
