import TestHarness.Proofs.Interleaving.Worker

/-!
# Reading a run while it ends

A worker starts a child, waits for it and completes the run, and any number of observers read the exit
code, the phase and the output in between its steps. Completing takes three steps of its own, and the run
has an exit code one step before it has its phase and its output: an observer can read the exit code and
then still the phase `spawned` and the raw output (`code_before_phase`).

This lasts until the worker's next step, and no longer. What observers read after an exit code falls into
two parts: a gap, in which the worker does nothing and everything that is read is as it was before
finishing, and the rest, in which everything that is read is final (`readings_after_code`). So an observer
that waits for the phase `completed` reads final values only.

The worker may start anywhere before the exit code is recorded. At `Point.collected` its steps are those of
completing alone (`Worker.complete_steps`).
-/

namespace TestHarness

/-! ## Readings -/

/-- What an observer reads of the shared state, under one hold of its lock: `exitCode`, `phase` or
    `output`. -/
inductive Reading where
  | exitCode (code : Option Int)
  | phase (found : Phase)
  | output (text : String)
deriving DecidableEq, Repr

/-- The reading is one of the state `c`. -/
def Reading.Of (c : Core) : Reading → Prop
  | .exitCode code => code = c.exitCode
  | .phase found => found = c.phase
  | .output text => text = c.output

/-- What happens in one step of the worker (`worked`) or of an observer (`read`). -/
inductive Sighting (κ : Type) where
  | worked (happening : Happening)
  | read (observer : κ) (reading : Reading)

variable {κ : Type}

/-- **One step** of the worker, or of an observer, which changes nothing: `Reading.Of` holds of what it
    reads. -/
inductive Observes : Worker → Sighting κ → Worker → Prop where
  | worked {w w' : Worker} {happening : Happening} :
      Worker.Step w happening w' → Observes w (.worked happening) w'
  | read {w : Worker} (observer : κ) {reading : Reading} :
      reading.Of w.runner.core → Observes w (.read observer reading) w

/-! ## Three stages -/

namespace Worker

/-- **`Pending`** — before the exit code is recorded. -/
structure Pending (w : Worker) : Prop where
  point : w.point ≠ .coded
  code : w.runner.core.exitCode = none
  phase : w.runner.core.phase ≠ .completed

/-- **`Recorded`** — in the gap: the exit code is recorded, and the output is still to be finished. -/
structure Recorded (w : Worker) (code : Int) : Prop where
  point : w.point = .coded
  code : w.runner.core.exitCode = some code
  phase : w.runner.core.phase = .spawned

/-- **`Finished`** — after finishing, with the shared state `c`. -/
structure Finished (w : Worker) (c : Core) : Prop where
  point : ∃ last, w.point = .idle last
  core : w.runner.core = c
  phase : c.phase = .completed

theorem not_coded_following {next : Point} (h : next ≠ .coded) (result : Except RunnerError Unit) :
    next.following result ≠ .coded := by
  cases result with
  | error e => nofun
  | ok u => exact h

theorem not_coded_afterLook (lastSent : Option Duration) (verdict : LocalRunner.Verdict) :
    Point.afterLook lastSent verdict ≠ .coded := by
  cases verdict <;> nofun

/-- A step that changes neither `exitCode` nor `phase`, unless it begins the run, keeps `Pending`. -/
theorem Pending.aside {w w' : Worker} (h : w.Pending) (hpoint : w'.point ≠ .coded)
    (hcode : w'.runner.core.exitCode = w.runner.core.exitCode)
    (hphase : w'.runner.core.phase = .completed → w.runner.core.phase = .completed) : w'.Pending :=
  ⟨hpoint, hcode.trans h.code, fun hdone => h.phase (hphase hdone)⟩

/-- **Only recording the exit code** leads out of `Pending`. -/
theorem Pending.step {w w' : Worker} {happening : Happening} (h : w.Pending)
    (hstep : Step w happening w') : w'.Pending ∨ ∃ code, w'.Recorded code := by
  have hmarked : Point.marked ≠ .coded := by rintro ⟨⟩
  have hpolling : Point.polling none ≠ .coded := by rintro ⟨⟩
  have hcollected : ∀ status, Point.collected status ≠ .coded := by rintro _ ⟨⟩
  have hconfirmed : ∀ status, Point.confirmed status ≠ .coded := by rintro _ ⟨⟩
  -- only one step records the exit code, and it finds the run spawned; every other is aside
  cases hstep with
  | mark _ =>
      refine Or.inl ⟨not_coded_following hmarked _, ?_, ?_⟩ <;>
        rcases w.runner.core.markSpawned_cases with ⟨_, hm⟩ | ⟨_, hm⟩ <;> rw [withCore, hm]
      · exact h.code
      · exact h.code
      · rintro ⟨⟩
      · exact h.phase
  | wait _ => exact Or.inl (h.aside (not_coded_following hpolling _) rfl id)
  | look l hpoint =>
      have hcore := (Step.look l hpoint).looked.core
      exact Or.inl (h.aside (not_coded_afterLook _ _) (congrArg Core.exitCode hcore)
        fun hdone => hcore ▸ hdone)
  | report _ =>
      exact Or.inl (h.aside (by rintro ⟨⟩) (w.runner.exitCode_reportTimeout)
        fun hdone => w.runner.phase_reportTimeout.symm.trans hdone)
  | @append status text _ =>
      have hsame : (w.runner.core.append text).1.exitCode = w.runner.core.exitCode ∧
          (w.runner.core.append text).1.phase = w.runner.core.phase := by
        rcases w.runner.core.append_cases text with ⟨_, ha⟩ | ⟨_, ha⟩ <;> rw [ha] <;> exact ⟨rfl, rfl⟩
      exact Or.inl (h.aside (not_coded_following (hcollected status) _) hsame.1
        fun hdone => hsame.2.symm.trans hdone)
  | @confirm status _ => exact Or.inl (h.aside (not_coded_following (hconfirmed status) _) rfl id)
  | @record status _ =>
      rcases w.runner.core.setExitCode_cases status.code with
        ⟨hphase, _, hs⟩ | ⟨_, _, _, hs⟩ | ⟨_, hs⟩ <;> rw [withCore, hs]
      · exact Or.inr ⟨status.code, rfl, rfl, hphase⟩
      · exact Or.inl (h.aside (by rintro ⟨⟩) rfl id)
      · exact Or.inl (h.aside (by rintro ⟨⟩) rfl id)
  | finish _ hpoint => exact absurd hpoint h.point
  | _ => exact Or.inl (h.aside (by rintro ⟨⟩) rfl id)

/-- **The gap ends with the next step** of the worker: `Recorded` becomes `Finished`. -/
theorem Recorded.step {w w' : Worker} {happening : Happening} {code : Int} (h : w.Recorded code)
    (hstep : Step w happening w') : ∃ files, w'.Finished (w.runner.core.closed files) := by
  have hpoint := h.point
  cases hstep with
  | finish files _ =>
      rcases w.runner.core.finalize_cases files with ⟨_, _, _, hf⟩ | ⟨_, hnone, _⟩ | ⟨hne, _⟩
      · rw [withCore, hf]
        exact ⟨files, ⟨_, rfl⟩, rfl, rfl⟩
      · rw [h.code] at hnone; cases hnone
      · exact absurd h.phase hne
  | _ => cases hpoint.symm.trans ‹w.point = _›

/-- **A finished run stays as it is**: a start and a wait are refused, and `Finished c` is kept. -/
theorem Finished.step {w w' : Worker} {happening : Happening} {c : Core} (h : w.Finished c)
    (hstep : Step w happening w') : w'.Finished c := by
  obtain ⟨last, hpoint⟩ := h.point
  have hphase : w.runner.core.phase = .completed := h.core ▸ h.phase
  cases hstep with
  | spawnRefused _ _ => exact ⟨⟨_, rfl⟩, h.core, h.phase⟩
  | spawn _ hcreated => rw [hphase] at hcreated; cases hcreated
  | wait _ =>
      rcases w.runner.core.ensureSpawned_cases "wait" with ⟨hspawned, _⟩ | ⟨_, hw⟩
      · rw [hphase] at hspawned; cases hspawned
      · rw [hw]; exact ⟨⟨_, rfl⟩, h.core, h.phase⟩
  | _ => cases hpoint.symm.trans ‹w.point = _›

end Worker

/-! ## What observers read -/

section Readings

variable {w₀ w : Worker} {trace : List (Sighting κ)}

/-- What is read of a `Finished` run is final. -/
theorem readings_of_finished {c : Core} (hw : w₀.Finished c) (h : Run Observes w₀ trace w) :
    w.Finished c ∧ ∀ observer reading, .read observer reading ∈ trace → reading.Of c := by
  induction h with
  | nil => exact ⟨hw, fun _ _ hmem => absurd hmem List.not_mem_nil⟩
  | snoc _ hstep ih =>
      obtain ⟨hw', hold⟩ := ih
      cases hstep with
      | worked hstep =>
          refine ⟨hw'.step hstep, fun observer reading hmem => ?_⟩
          rcases List.mem_append.mp hmem with hmem | hmem
          · exact hold observer reading hmem
          · cases List.mem_singleton.mp hmem
      | read _ hreading =>
          refine ⟨hw', fun observer reading hmem => ?_⟩
          rcases List.mem_append.mp hmem with hmem | hmem
          · exact hold observer reading hmem
          · cases List.mem_singleton.mp hmem
            exact hw'.core ▸ hreading

/-- **What is read from the gap on**: readings of `w₀.runner.core` until the worker's next step, and of the
    `closed` state after it. -/
theorem readings_of_recorded {code : Int} (hw : w₀.Recorded code) (h : Run Observes w₀ trace w) :
    ∃ files gap rest, trace = gap ++ rest ∧
      (∀ e ∈ gap, ∃ observer reading, e = .read observer reading ∧ reading.Of w₀.runner.core) ∧
      (rest = [] ∧ w = w₀ ∨ w.Finished (w₀.runner.core.closed files)) ∧
      ∀ observer reading, .read observer reading ∈ rest → reading.Of (w₀.runner.core.closed files) := by
  induction h with
  | nil =>
      exact ⟨fun _ => none, [], [], rfl, fun _ hmem => absurd hmem List.not_mem_nil, Or.inl ⟨rfl, rfl⟩,
        fun _ _ hmem => absurd hmem List.not_mem_nil⟩
  | @snoc trace w w' e _ hstep ih =>
      obtain ⟨files, gap, rest, rfl, hgap, hstage, hrest⟩ := ih
      -- the worker has not finished yet, so the step is its last or a reading of the gap
      rcases hstage with ⟨rfl, rfl⟩ | hfinished
      · cases hstep with
        | worked hstep =>
            obtain ⟨files, hfinished⟩ := hw.step hstep
            refine ⟨files, gap, [.worked _], by rw [List.append_nil], hgap, Or.inr hfinished, ?_⟩
            intro _ _ hmem
            cases List.mem_singleton.mp hmem
        | read observer hreading =>
            refine ⟨files, gap ++ [.read observer _], [], by rw [List.append_nil, List.append_nil], ?_,
              Or.inl ⟨rfl, rfl⟩, hrest⟩
            intro e hmem
            rcases List.mem_append.mp hmem with hmem | hmem
            · exact hgap e hmem
            · rw [List.mem_singleton.mp hmem]
              exact ⟨observer, _, rfl, hreading⟩
      · obtain ⟨hfinished', hnew⟩ := readings_of_finished hfinished (Run.nil.snoc hstep)
        refine ⟨files, gap, rest ++ [e], List.append_assoc _ _ _, hgap, Or.inr hfinished', ?_⟩
        intro observer reading hmem
        rcases List.mem_append.mp hmem with hmem | hmem
        · exact hrest observer reading hmem
        · exact hnew observer reading hmem

/-- Where a worker that started `Pending` may have come to: it is `Pending`, `Recorded` or `Finished`. -/
theorem stage_of_run (hw : w₀.Pending) (h : Run Observes w₀ trace w) :
    w.Pending ∨ (∃ code, w.Recorded code) ∨
    ∃ (c : Core) (files : FileView) (code : Int),
      c.phase = .spawned ∧ c.exitCode = some code ∧ w.Finished (c.closed files) := by
  induction h with
  | nil => exact Or.inl hw
  | snoc _ hstep ih =>
      cases hstep with
      | read _ _ => exact ih
      | worked hstep =>
          rcases ih with hpending | ⟨code, hrecorded⟩ | ⟨c, files, code, hphase, hcode, hfinished⟩
          · rcases hpending.step hstep with hpending | hrecorded
            · exact Or.inl hpending
            · exact Or.inr (Or.inl hrecorded)
          · obtain ⟨files, hfinished⟩ := hrecorded.step hstep
            exact Or.inr (Or.inr ⟨_, files, code, hrecorded.phase, hrecorded.code, hfinished⟩)
          · exact Or.inr (Or.inr ⟨c, files, code, hphase, hcode, hfinished.step hstep⟩)

/-- What a `closed` state shows. -/
theorem Reading.Of.of_closed {c : Core} {files : FileView} {reading : Reading}
    (h : reading.Of (c.closed files)) :
    reading.Of { c with
      phase := .completed
      output := Scrub.scrub (c.output ++ Output.sections files c.headerWidth c.redirectedFiles) } := by
  cases reading with
  | exitCode code => exact h
  | phase found => exact h
  | output text => exact h.trans (c.output_closed files)

/-- **After an exit code.** A worker starts anywhere before the exit code of its run is recorded, and
    observers read the run in between its steps. Take a reading of an exit code and all that happens after
    it. First there is a gap, which may be empty: the worker does nothing, and every reading is of a state
    with the exit code that is still spawned and not finished. From there on every reading is of that
    state finished: the phase is `completed`, the exit code is the same, and the output is the scrubbed
    text with the sections of the redirected files. -/
theorem readings_after_code (hpoint : w₀.point ≠ .coded) (hnone : w₀.runner.core.exitCode = none)
    (hopen : w₀.runner.core.phase ≠ .completed) {before after : List (Sighting κ)} {observer : κ}
    {code : Int}
    (h : Run Observes w₀ (before ++ .read observer (.exitCode (some code)) :: after) w) :
    ∃ (c : Core) (files : FileView) (gap rest : List (Sighting κ)), after = gap ++ rest ∧
      c.phase = .spawned ∧ c.exitCode = some code ∧
      (∀ e ∈ gap, ∃ observer reading, e = .read observer reading ∧ reading.Of c) ∧
      ∀ observer reading, .read observer reading ∈ rest →
        reading.Of { c with
          phase := .completed
          output := Scrub.scrub (c.output ++ Output.sections files c.headerWidth c.redirectedFiles) } := by
  rw [← List.singleton_append, ← List.append_assoc] at h
  obtain ⟨w₁, hread, hafter⟩ := h.split
  obtain ⟨_, _, hstep⟩ := hread.unsnoc
  have hcode : some code = w₁.runner.core.exitCode := by
    cases hstep with
    | read _ hreading => exact hreading
  -- the exit code is recorded, so the worker is in the gap or past it
  rcases stage_of_run ⟨hpoint, hnone, hopen⟩ hread with
    hpending | ⟨_, hrecorded⟩ | ⟨c, files, _, hphase, hcode', hfinished⟩
  · rw [hpending.code] at hcode; cases hcode
  · obtain ⟨files, gap, rest, hsplit, hgap, _, hrest⟩ := readings_of_recorded hrecorded hafter
    exact ⟨_, files, gap, rest, hsplit, hrecorded.phase, hcode.symm, hgap,
      fun observer reading hmem => (hrest observer reading hmem).of_closed⟩
  · obtain ⟨_, hrest⟩ := readings_of_finished hfinished hafter
    rw [hfinished.core] at hcode
    exact ⟨c, files, [], after, rfl, hphase, hcode.symm, fun _ hmem => absurd hmem List.not_mem_nil,
      fun observer reading hmem => (hrest observer reading hmem).of_closed⟩

end Readings

/-- **The gap is there.** A worker completes a run whose output holds a NUL, and an observer reads the exit
    code before its last step, then the phase and the output: the phase is not `completed`, and the NUL is
    there. -/
theorem code_before_phase :
    ∃ (w₀ w : Worker), w₀.point = .collected (.exited 3) ∧ w₀.runner.core.phase = .spawned ∧
      w₀.runner.core.exitCode = none ∧
      Run Observes w₀ ([.worked .quiet, .worked .quiet] ++ .read () (.exitCode (some 3))
        :: [.read () (.phase .spawned), .read () (.output "a\x00\n")]) w := by
  refine ⟨⟨{ core := { job := { tester := Tester.plan { name := "t", command := .ofProgram [] } }
                       phase := .spawned, output := "a\x00\n" } }, {}, .collected (.exited 3)⟩, _,
    rfl, rfl, rfl, ((((Run.nil.snoc (.worked (.confirm rfl))).snoc (.worked (.record rfl))).snoc
    (.read () rfl)).snoc (.read () rfl)).snoc (.read () (by exact rfl))⟩

/-- The same observer reads the phase again when the worker has taken its last step: it is `.completed`. -/
theorem readings_after_code_twice :
    ∃ (w₀ w : Worker) (c : Core),
      Run Observes w₀ ([.worked .quiet, .worked .quiet] ++ .read () (.exitCode (some 3))
        :: [.read () (.phase .spawned), .worked .quiet, .read () (.phase .completed)]) w ∧
      c.exitCode = some 3 ∧ c.phase = .spawned := by
  obtain ⟨w₀, w, hpoint, hnone, hopen, hrun⟩ : ∃ w₀ w : Worker, w₀.point ≠ .coded ∧
      w₀.runner.core.exitCode = none ∧ w₀.runner.core.phase ≠ .completed ∧
      Run Observes w₀ ([.worked .quiet, .worked .quiet] ++ .read () (.exitCode (some 3))
        :: [.read () (.phase .spawned), .worked .quiet, .read () (.phase .completed)]) w := by
    refine ⟨⟨{ core := { job := { tester := Tester.plan { name := "t", command := .ofProgram [] } }
                         phase := .spawned, output := "a\x00\n" } }, {}, .collected (.exited 3)⟩, _,
      nofun, rfl, nofun, (((((Run.nil.snoc (.worked (.confirm rfl))).snoc (.worked (.record rfl))).snoc
      (.read () rfl)).snoc (.read () rfl)).snoc (.worked (.finish (fun _ => none) rfl))).snoc
      (.read () (by exact rfl))⟩
  obtain ⟨c, _, _, _, _, hphase, hcode, _⟩ := readings_after_code hpoint hnone hopen hrun
  exact ⟨w₀, w, c, hrun, hcode, hphase⟩

end TestHarness
