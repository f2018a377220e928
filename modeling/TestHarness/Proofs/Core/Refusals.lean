import TestHarness.Proofs.Core.Runs

/-!
# Refused calls

A run may be asked for things that its phase does not allow. Such a call is refused, and a refused call
might as well not have been made: without it every other call has the same result, and the run ends in the
same phase with the same exit code, output, status and caveats (`refused_calls_unseen`).

The states themselves need not be equal. Octets that are appended to a completed run are decoded before
they are refused, and a substitution leaves its mark. But only finishing reads the mark, and a completed run
is never finished again. So the argument is about what can still be read of a state (`seen`): a refused
call changes nothing of it (`seen_of_refused`), and two states of which the same can be read answer every
call in the same way (`perform_congr`).
-/

namespace TestHarness

namespace Operation

/-- What a completed run answers: `.invalidState`, except when a stream is read. -/
def lateAnswer : Operation → Except RunnerError Unit
  | markSpawned => .error (.invalidState "spawn" .completed)
  | ensureSpawned operation => .error (.invalidState operation .completed)
  | append _ | appendBytes _ => .error (.invalidState "append output" .completed)
  | readStream _ => .ok ()
  | setExitCode _ => .error (.invalidState "set exit code" .completed)
  | finalize _ => .error (.invalidState "finalize" .completed)
  | complete _ _ => .error (.invalidState "complete" .completed)

/-- What the job still hears of when the run is completed: the `fault?` of a stream that is read. -/
def lateFaults : Operation → List Status
  | readStream stream => stream.fault?.toList
  | _ => []

end Operation

namespace Core

/-! ## Refusals, and calls that come after the end -/

/-- A refused `complete` has recorded no exit code. -/
theorem complete_of_error {c : Core} {files : FileView} {code : Int} {e : RunnerError}
    (h : (c.complete files code).2 = .error e) : (c.complete files code).1 = c := by
  rcases c.complete_cases files code with ⟨_, _, hc⟩ | ⟨_, _, _, hc⟩ | ⟨_, hc⟩ <;> rw [hc] at h ⊢
  cases h

/-- A refused `finalize` has added nothing to the output. -/
theorem finalize_of_error {c : Core} {files : FileView} {e : RunnerError}
    (h : (c.finalize files).2 = .error e) : (c.finalize files).1 = c := by
  rcases c.finalize_cases files with ⟨_, _, _, hf⟩ | ⟨_, _, hf⟩ | ⟨_, hf⟩ <;> rw [hf] at h ⊢
  cases h

/-- Once an exit code is recorded by `setExitCode`, `finalize` is not refused. -/
theorem finalize_of_setExitCode {c : Core} {code : Int} (files : FileView)
    (h : (c.setExitCode code).2 = .ok ()) : ((c.setExitCode code).1.finalize files).2 = .ok () := by
  rcases c.setExitCode_cases code with ⟨hphase, _, hs⟩ | ⟨_, _, _, hs⟩ | ⟨_, hs⟩ <;> rw [hs] at h ⊢
  · rcases (c.withCode code).finalize_cases files with ⟨_, _, _, hf⟩ | ⟨_, hnone, _⟩ | ⟨hne, _⟩
    · rw [hf]
    · cases hnone
    · exact absurd hphase hne
  · cases h
  · cases h

/-- **A refused call** leaves the state as it is, or marks a substitution in a completed one
    (`noteSubstitution`). -/
theorem perform_of_refused {c : Core} {operation : Operation} {e : RunnerError}
    (h : (c.perform operation).2 = .error e) :
    (c.perform operation).1 = c ∨
    (c.phase = .completed ∧ (c.perform operation).1 = c.noteSubstitution) := by
  cases operation with
  | markSpawned =>
      rcases c.markSpawned_cases with ⟨_, hm⟩ | ⟨_, hm⟩ <;> rw [perform, hm] at h ⊢
      · cases h
      · exact Or.inl rfl
  | ensureSpawned operation => exact Or.inl rfl
  | append text =>
      rcases c.append_cases text with ⟨_, ha⟩ | ⟨_, ha⟩ <;> rw [perform, ha] at h ⊢
      · cases h
      · exact Or.inl rfl
  | appendBytes bytes =>
      rw [perform, appendBytes_eq] at h ⊢
      rcases (c.decoding bytes).append_cases (Utf8.decodeLossy bytes) with ⟨_, ha⟩ | ⟨hdone, ha⟩ <;>
        rw [ha] at h ⊢
      · cases h
      · rw [phase_decoding] at hdone
        by_cases hwf : Utf8.wellFormed bytes = true
        · exact Or.inl (if_pos hwf)
        · exact Or.inr ⟨hdone, if_neg hwf⟩
  | readStream stream => cases h
  | setExitCode code =>
      rcases c.setExitCode_cases code with ⟨_, _, hs⟩ | ⟨_, _, _, hs⟩ | ⟨_, hs⟩ <;>
        rw [perform, hs] at h ⊢
      · cases h
      · exact Or.inl rfl
      · exact Or.inl rfl
  | finalize files => exact Or.inl (finalize_of_error h)
  | complete files code => exact Or.inl (complete_of_error h)

/-- **A completed run** answers a call with `lateAnswer` whatever its state is. Only the job and the mark
    `replacedInvalid` may still change. -/
theorem perform_of_completed {c : Core} (hdone : c.phase = .completed) (operation : Operation) :
    (c.perform operation).2 = operation.lateAnswer ∧
    ∃ late, (c.perform operation).1
      = { c with
          job := c.job.notifyAll (operation.lateFaults.map Notice.status), replacedInvalid := late } := by
  have hcreated : c.phase ≠ .created := by rw [hdone]; decide
  have hspawned : c.phase ≠ .spawned := by rw [hdone]; decide
  have hsame : ∀ {operation : Operation}, operation.lateFaults = [] →
      c.perform operation = (c, operation.lateAnswer) →
      (c.perform operation).2 = operation.lateAnswer ∧
      ∃ late, (c.perform operation).1
        = { c with
            job := c.job.notifyAll (operation.lateFaults.map Notice.status), replacedInvalid := late } := by
    intro operation hfaults h
    rw [h, hfaults]
    exact ⟨rfl, c.replacedInvalid, rfl⟩
  cases operation with
  | markSpawned =>
      rcases c.markSpawned_cases with ⟨h, _⟩ | ⟨_, h⟩
      · exact absurd h hcreated
      · exact hsame rfl (by rw [perform, h, hdone]; rfl)
  | ensureSpawned operation =>
      rcases c.ensureSpawned_cases operation with ⟨h, _⟩ | ⟨_, h⟩
      · exact absurd h hspawned
      · exact hsame rfl (by rw [perform, h, hdone]; rfl)
  | append text =>
      rcases c.append_cases text with ⟨h, _⟩ | ⟨_, h⟩
      · exact absurd hdone h
      · exact hsame rfl h
  | appendBytes bytes =>
      rw [perform, appendBytes_eq]
      rcases (c.decoding bytes).append_cases (Utf8.decodeLossy bytes) with ⟨h, _⟩ | ⟨_, h⟩
      · rw [phase_decoding] at h
        exact absurd hdone h
      · rw [h]
        refine ⟨rfl, ?_⟩
        -- the octets are decoded first
        unfold decoding
        split
        · exact ⟨c.replacedInvalid, rfl⟩
        · exact ⟨true, rfl⟩
  | readStream stream =>
      refine ⟨rfl, c.replacedInvalid, ?_⟩
      show { c with job := c.job.notifyAll stream.readText.2 } = _
      rw [Stream.readText_eq]
      rfl
  | setExitCode code =>
      rcases c.setExitCode_cases code with ⟨h, _⟩ | ⟨_, h, _⟩ | ⟨_, h⟩
      · exact absurd h hspawned
      · exact absurd h hspawned
      · exact hsame rfl (by rw [perform, h, hdone]; rfl)
  | finalize files =>
      rcases c.finalize_cases files with ⟨_, h, _⟩ | ⟨h, _⟩ | ⟨_, h⟩
      · exact absurd h hspawned
      · exact absurd h hspawned
      · exact hsame rfl (by rw [perform, h, hdone]; rfl)
  | complete files code =>
      rcases c.complete_cases files code with ⟨h, _⟩ | ⟨_, h, _⟩ | ⟨_, h⟩
      · exact absurd h hspawned
      · exact absurd h hspawned
      · exact hsame rfl (by rw [perform, h, hdone]; rfl)

/-! ## What can be read of a state -/

/-- **What can still be read of a state**: all of it, apart from `replacedInvalid` once the run is
    completed. -/
def seen (c : Core) : Core :=
  if c.phase = .completed then { c with replacedInvalid := false } else c

@[simp] theorem phase_seen (c : Core) : c.seen.phase = c.phase := by unfold seen; split <;> rfl

@[simp] theorem exitCode_seen (c : Core) : c.seen.exitCode = c.exitCode := by unfold seen; split <;> rfl

@[simp] theorem output_seen (c : Core) : c.seen.output = c.output := by unfold seen; split <;> rfl

@[simp] theorem job_seen (c : Core) : c.seen.job = c.job := by unfold seen; split <;> rfl

theorem seen_of_completed {c : Core} (hdone : c.phase = .completed) :
    c.seen = { c with replacedInvalid := false } := if_pos hdone

theorem seen_of_open {c : Core} (hopen : c.phase ≠ .completed) : c.seen = c := if_neg hopen

/-- **A refused call** changes nothing that can be read: `seen` stays. -/
theorem seen_of_refused {c : Core} {operation : Operation} {e : RunnerError}
    (h : (c.perform operation).2 = .error e) : (c.perform operation).1.seen = c.seen := by
  rcases perform_of_refused h with hsame | ⟨hdone, hnoted⟩
  · rw [hsame]
  · have hdone' : c.noteSubstitution.phase = .completed := hdone
    rw [hnoted, seen_of_completed hdone', seen_of_completed hdone]
    rfl

/-- **Where the same is `seen`, the same is answered**, and the same is `seen` afterwards. -/
theorem perform_congr {c d : Core} (h : c.seen = d.seen) (operation : Operation) :
    (d.perform operation).2 = (c.perform operation).2 ∧
    (d.perform operation).1.seen = (c.perform operation).1.seen := by
  have hphase : d.phase = c.phase := by rw [← phase_seen d, ← h, phase_seen]
  -- completed states may differ in the mark, which nothing reads any more; open ones are equal
  by_cases hdone : c.phase = .completed
  · have hdone' : d.phase = .completed := hphase.trans hdone
    have hd : d = { c with replacedInvalid := d.replacedInvalid } := by
      rw [seen_of_completed hdone, seen_of_completed hdone'] at h
      cases c
      cases d
      cases h
      rfl
    obtain ⟨hanswer, late, hstate⟩ := perform_of_completed hdone operation
    obtain ⟨hanswer', late', hstate'⟩ := perform_of_completed hdone' operation
    refine ⟨hanswer'.trans hanswer.symm, ?_⟩
    rw [hstate, hstate', hd]
    unfold seen
    rw [if_pos hdone, if_pos hdone]
  · have hopen : d.phase ≠ .completed := by rw [hphase]; exact hdone
    rw [seen_of_open hdone, seen_of_open hopen] at h
    rw [h]
    exact ⟨rfl, rfl⟩

/-! ## Runs without their refused calls -/

/-- The calls of a run that are not refused, those with `(c.perform call).2.isOk`. -/
def granted (c : Core) (calls : List Operation) : List Operation :=
  ((c.transcript calls).filter fun call => call.2.isOk).map Prod.fst

/-- **A run without its refused calls** (`granted`), from any state of which the same is `seen`. -/
theorem run_granted {c d : Core} (h : c.seen = d.seen) (calls : List Operation) :
    d.transcript (c.granted calls) = (c.transcript calls).filter (fun call => call.2.isOk) ∧
    (d.run (c.granted calls)).seen = (c.run calls).seen := by
  -- by induction on the calls, for any two states: the calls that are left are made in other states
  induction calls generalizing c d with
  | nil => exact ⟨rfl, h.symm⟩
  | cons operation rest ih =>
      rw [granted, transcript]
      cases hresult : (c.perform operation).2 with
      | error e =>
          have hrefused : (Except.error e : Except RunnerError Unit).isOk = false := rfl
          have hnext : (c.perform operation).1.seen = d.seen := (seen_of_refused hresult).trans h
          simp only [List.filter_cons, hrefused, Bool.false_eq_true, if_false]
          exact ih hnext
      | ok u =>
          have hgranted : (Except.ok u : Except RunnerError Unit).isOk = true := rfl
          obtain ⟨hanswer, hnext⟩ := perform_congr h operation
          obtain ⟨htranscript, hrun⟩ := ih hnext.symm
          simp only [List.filter_cons, hgranted, if_true, List.map_cons, transcript]
          refine ⟨?_, hrun⟩
          rw [hanswer, hresult]
          exact congrArg _ htranscript

/-- A completed run makes no more caveats: `(c.run calls).job.caveats = c.job.caveats`. -/
theorem caveats_run_of_completed {c : Core} (hdone : c.phase = .completed) (calls : List Operation) :
    (c.run calls).job.caveats = c.job.caveats := by
  induction calls generalizing c with
  | nil => rfl
  | cons operation rest ih =>
      obtain ⟨_, late, hstate⟩ := perform_of_completed hdone operation
      have hnext : (c.perform operation).1.phase = .completed := by rw [hstate]; exact hdone
      rw [run_cons, ih hnext, hstate]
      exact c.job.caveats_notifyAll_status operation.lateFaults

/-- **Refused calls are unseen.** Take any calls on a fresh state, and leave out those that are refused.
    The others have the same results, and the run ends in the same phase, with the same exit code, the same
    output and the same job, its status and caveats included.

    In the state `c` that the calls lead to this comes to the following. A refused completion has recorded
    no exit code: where one can be recorded, the finishing after it succeeds. A refused finishing leaves the
    output as it is and adds no section. Octets that a completed run refuses lead to no caveat, then or
    later. -/
theorem refused_calls_unseen (job : Job) (options : Options) (calls : List Operation) :
    let start := fresh job options
    let c := start.run calls
    let d := start.run (start.granted calls)
    start.transcript (start.granted calls)
      = (start.transcript calls).filter (fun call => call.2.isOk) ∧
    d.phase = c.phase ∧ d.exitCode = c.exitCode ∧ d.output = c.output ∧ d.job = c.job ∧
    (∀ files code e, (c.complete files code).2 = .error e → (c.complete files code).1 = c) ∧
    (∀ files code, (c.setExitCode code).2 = .ok () →
      ((c.setExitCode code).1.finalize files).2 = .ok ()) ∧
    (∀ files e, (c.finalize files).2 = .error e → (c.finalize files).1 = c) ∧
    (∀ bytes after, c.phase = .completed →
      ((c.appendBytes bytes).1.run after).job.caveats = c.job.caveats) := by
  intro start c d
  -- both runs end in states that look alike, and phase, code, output and job are part of the look
  obtain ⟨htranscript, hseen⟩ := run_granted (rfl : start.seen = start.seen) calls
  have hseen : d.seen = c.seen := hseen
  have hphase : d.phase = c.phase := by rw [← phase_seen d, hseen, phase_seen]
  have hcode : d.exitCode = c.exitCode := by rw [← exitCode_seen d, hseen, exitCode_seen]
  have houtput : d.output = c.output := by rw [← output_seen d, hseen, output_seen]
  have hjob : d.job = c.job := by rw [← job_seen d, hseen, job_seen]
  refine ⟨htranscript, hphase, hcode, houtput, hjob, ?_, ?_, ?_, ?_⟩
  · intro files code e h
    exact complete_of_error h
  · intro files code h
    exact finalize_of_setExitCode files h
  · intro files e h
    exact finalize_of_error h
  · intro bytes after hdone
    exact caveats_run_of_completed hdone (.appendBytes bytes :: after)

end Core

end TestHarness
