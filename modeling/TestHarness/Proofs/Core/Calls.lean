import TestHarness.Proofs.Job
import TestHarness.Proofs.Output
import TestHarness.Runner.Core

/-!
# What one call of the shared state can do

One lemma per call that lists its outcomes, each with the condition under which it happens and the
whole state after it. All calls together make only a handful of changes to the state (`Change`), and
`perform_change` says that each call makes one of them. Later proofs split along these outcomes and
changes and never open a call again.

A call that is refused gives the state back unchanged, apart from `appendBytes`, which has remembered a
substitution by the time its text is refused.
-/

namespace TestHarness

namespace Core

/-! ## The state after a success -/

/-- The state with the exit code `code`. -/
def withCode (c : Core) (code : Int) : Core := { c with exitCode := some code }

/-- The state with `text` added to the output. -/
def withText (c : Core) (text : String) : Core := { c with output := c.output ++ text }

/-- **The finished state**: the output is put together and repaired (`Output.finish`), and the job has the
    notices. -/
def closed (c : Core) (files : FileView) : Core :=
  { c with
    output := (c.finished files).1
    phase := .completed
    job := c.job.notifyAll (c.finished files).2 }

/-- The text that finishing repairs: `c.output` so far and the `Output.sections` of the redirected files. -/
def mergedText (c : Core) (files : FileView) : String :=
  c.output ++ Output.sections files c.headerWidth c.redirectedFiles

theorem output_closed (c : Core) (files : FileView) :
    (c.closed files).output = Scrub.scrub (c.mergedText files) :=
  Output.finish_fst files c.redirectedFiles c.headerWidth c.replacedInvalid c.output

/-- **The status of a finished run**: `nulCharacters` if there were NULs, else the fault of the last faulty
    file, else what it was before. -/
theorem status_closed (c : Core) (files : FileView) :
    (c.closed files).job.status
      = (if Scrub.HasNul (c.mergedText files) then some Output.nulCharacters
          else (c.redirectedFiles.filterMap (Output.fault? files)).getLast?).getD c.job.status := by
  have hstatuses : (c.finished files).2.filterMap Notice.status?
      = c.redirectedFiles.filterMap (Output.fault? files)
        ++ if Scrub.HasNul (c.mergedText files) then [Output.nulCharacters] else [] := by
    rw [finished, Output.finish_snd, List.filterMap_append, List.filterMap_append, List.filterMap_map]
    have hfaults : ∀ statuses : List Status,
        statuses.filterMap (Notice.status? ∘ Notice.status) = statuses := by
      intro statuses
      exact List.filterMap_some
    -- a caveat sets no status
    have hcaveat : (Output.substitutionNotices c.replacedInvalid).filterMap Notice.status? = [] := by
      cases c.replacedInvalid <;> rfl
    rw [hfaults, hcaveat, List.append_nil]
    congr 1
    by_cases hnul : Scrub.HasNul (c.mergedText files)
    · rw [if_pos hnul]; unfold mergedText at hnul; rw [decide_eq_true hnul]; rfl
    · rw [if_neg hnul]; unfold mergedText at hnul; rw [decide_eq_false hnul]; rfl
  show (c.job.notifyAll (c.finished files).2).status = _
  rw [Job.status_notifyAll, hstatuses]
  by_cases hnul : Scrub.HasNul (c.mergedText files)
  · rw [if_pos hnul, if_pos hnul, List.getLast?_concat]
  · rw [if_neg hnul, if_neg hnul, List.append_nil]

/-! ## Outcomes -/

theorem markSpawned_cases (c : Core) :
    (c.phase = .created ∧ c.markSpawned = ({ c with phase := .spawned }, .ok ())) ∨
    (c.phase ≠ .created ∧ c.markSpawned = (c, .error (.invalidState "spawn" c.phase))) := by
  unfold markSpawned
  by_cases h : c.phase = .created
  · exact Or.inl ⟨h, by rw [if_pos h]⟩
  · exact Or.inr ⟨h, by rw [if_neg h]⟩

theorem ensureSpawned_cases (c : Core) (operation : String) :
    (c.phase = .spawned ∧ c.ensureSpawned operation = .ok ()) ∨
    (c.phase ≠ .spawned ∧
      c.ensureSpawned operation = .error (.invalidState operation c.phase)) := by
  unfold ensureSpawned
  by_cases h : c.phase = .spawned
  · exact Or.inl ⟨h, by rw [if_pos h]⟩
  · exact Or.inr ⟨h, by rw [if_neg h]⟩

theorem append_cases (c : Core) (text : String) :
    (c.phase ≠ .completed ∧ c.append text = (c.withText text, .ok ())) ∨
    (c.phase = .completed ∧
      c.append text = (c, .error (.invalidState "append output" .completed))) := by
  unfold append
  by_cases h : c.phase = .completed
  · exact Or.inr ⟨h, by rw [if_pos h, h]⟩
  · exact Or.inl ⟨h, by rw [if_neg h]; rfl⟩

theorem setExitCode_cases (c : Core) (code : Int) :
    (c.phase = .spawned ∧ c.exitCode = none ∧ c.setExitCode code = (c.withCode code, .ok ())) ∨
    (∃ existing, c.phase = .spawned ∧ c.exitCode = some existing ∧
      c.setExitCode code = (c, .error (.exitCodeAlreadySet existing))) ∨
    (c.phase ≠ .spawned ∧
      c.setExitCode code = (c, .error (.invalidState "set exit code" c.phase))) := by
  unfold setExitCode
  by_cases h : c.phase = .spawned
  · rw [if_neg (not_not_intro h)]
    cases hcode : c.exitCode with
    | none => exact Or.inl ⟨h, rfl, rfl⟩
    | some existing => exact Or.inr (Or.inl ⟨existing, h, rfl, rfl⟩)
  · exact Or.inr (Or.inr ⟨h, by rw [if_pos h]⟩)

theorem finalize_cases (c : Core) (files : FileView) :
    (∃ code, c.phase = .spawned ∧ c.exitCode = some code ∧
      c.finalize files = (c.closed files, .ok ())) ∨
    (c.phase = .spawned ∧ c.exitCode = none ∧ c.finalize files = (c, .error .exitCodeMissing)) ∨
    (c.phase ≠ .spawned ∧
      c.finalize files = (c, .error (.invalidState "finalize" c.phase))) := by
  unfold finalize
  by_cases h : c.phase = .spawned
  · rw [if_neg (not_not_intro h)]
    cases hcode : c.exitCode with
    | none => exact Or.inr (Or.inl ⟨h, rfl, rfl⟩)
    | some code => exact Or.inl ⟨code, h, rfl, by unfold closed; rw [hcode]⟩
  · exact Or.inr (Or.inr ⟨h, by rw [if_pos h]⟩)

/-- **Completing** succeeds exactly while the run is `.spawned` and has no exit code. Its last part,
    `finalize`, is never refused then. -/
theorem complete_cases (c : Core) (files : FileView) (code : Int) :
    (c.phase = .spawned ∧ c.exitCode = none ∧
      c.complete files code = ((c.withCode code).closed files, .ok ())) ∨
    (∃ existing, c.phase = .spawned ∧ c.exitCode = some existing ∧
      c.complete files code = (c, .error (.exitCodeAlreadySet existing))) ∨
    (c.phase ≠ .spawned ∧
      c.complete files code = (c, .error (.invalidState "complete" c.phase))) := by
  unfold complete
  rcases c.ensureSpawned_cases "complete" with ⟨hphase, hensure⟩ | ⟨hphase, hensure⟩
  · rw [hensure]
    rcases c.setExitCode_cases code with ⟨_, hcode, hset⟩ | ⟨existing, _, hcode, hset⟩ | ⟨hne, _⟩
    · refine Or.inl ⟨hphase, hcode, ?_⟩
      rw [hset]
      -- the exit code is there now, and the phase is what it was
      rcases (c.withCode code).finalize_cases files with ⟨_, _, _, hfin⟩ | ⟨_, hnone, _⟩ | ⟨hne, _⟩
      · exact hfin
      · exact absurd hnone (by simp [withCode])
      · exact absurd hphase hne
    · exact Or.inr (Or.inl ⟨existing, hphase, hcode, by rw [hset]⟩)
    · exact absurd hphase hne
  · exact Or.inr (Or.inr ⟨hphase, by rw [hensure]⟩)

/-- The state in which octets are appended: a substitution is remembered first (`noteSubstitution`). -/
def decoding (c : Core) (bytes : Bytes) : Core :=
  if Utf8.wellFormed bytes then c else c.noteSubstitution

@[simp] theorem phase_decoding (c : Core) (bytes : Bytes) : (c.decoding bytes).phase = c.phase := by
  unfold decoding; split <;> rfl

@[simp] theorem job_decoding (c : Core) (bytes : Bytes) : (c.decoding bytes).job = c.job := by
  unfold decoding; split <;> rfl

theorem appendBytes_eq (c : Core) (bytes : Bytes) :
    c.appendBytes bytes = (c.decoding bytes).append (Utf8.decodeLossy bytes) := rfl

end Core

/-! ## Accepted texts -/

/-- The text that a call adds to the output if it succeeds; `appendBytes` adds the decoded octets. -/
def Operation.text? : Operation → Option String
  | .append text => some text
  | .appendBytes bytes => some (Utf8.decodeLossy bytes)
  | _ => none

/-- The text that a call with that result has added: `Operation.text?` if the result is `.ok ()`. -/
def acceptedText? : Operation × Except RunnerError Unit → Option String
  | (operation, .ok ()) => operation.text?
  | (_, .error _) => none

/-! ## Changes -/

namespace Core

/-- **`Change`** — the changes that calls make, each with the text that it adds to the output, if it adds
    one. -/
inductive Change (c : Core) : Option String → Core → Prop where
  /-- A refusal, or a question such as `ensureSpawned`. -/
  | same : Change c none c
  /-- Octets that were decoded by `appendBytes` and then refused. -/
  | noted : c.phase = .completed → Change c none c.noteSubstitution
  | spawned : c.phase = .created → Change c none { c with phase := .spawned }
  | appended (text : String) (replaced : Bool) : c.phase ≠ .completed →
      Change c (some text)
        { c with output := c.output ++ text, replacedInvalid := c.replacedInvalid || replaced }
  /-- A stream that was read by `readStream`. -/
  | told (notices : List Notice) : Change c none { c with job := c.job.notifyAll notices }
  | coded (code : Int) : c.phase = .spawned → c.exitCode = none → Change c none (c.withCode code)
  /-- A finished output (`closed`), of a run that had its exit code before or gets it now. -/
  | closed (code : Int) (files : FileView) : c.phase = .spawned →
      (c.exitCode = none ∨ c.exitCode = some code) →
      Change c none ((c.withCode code).closed files)

theorem withCode_eq_self {c : Core} {code : Int} (h : c.exitCode = some code) :
    c.withCode code = c := by
  unfold withCode
  rw [← h]

theorem withText_change (c : Core) (text : String) (hopen : c.phase ≠ .completed) :
    Change c (some text) (c.withText text) := by
  have h := Change.appended text false hopen
  rw [Bool.or_false] at h
  exact h

theorem appendBytes_change (c : Core) (bytes : Bytes) :
    Change c (acceptedText? (.appendBytes bytes, (c.appendBytes bytes).2)) (c.appendBytes bytes).1 := by
  rw [appendBytes_eq]
  rcases (c.decoding bytes).append_cases (Utf8.decodeLossy bytes) with ⟨hopen, h⟩ | ⟨hdone, h⟩
  · rw [h]
    rw [phase_decoding] at hopen
    by_cases hwf : Utf8.wellFormed bytes = true
    · rw [decoding, if_pos hwf]
      exact withText_change c _ hopen
    · rw [decoding, if_neg hwf]
      have hnoted := Change.appended (Utf8.decodeLossy bytes) true hopen
      rw [Bool.or_true] at hnoted
      exact hnoted
  · rw [h]
    rw [phase_decoding] at hdone
    by_cases hwf : Utf8.wellFormed bytes = true
    · rw [decoding, if_pos hwf]; exact .same
    · rw [decoding, if_neg hwf]; exact .noted hdone

/-- **Each call makes one `Change`**, and adds its `acceptedText?`. -/
theorem perform_change (c : Core) (operation : Operation) :
    Change c (acceptedText? (operation, (c.perform operation).2)) (c.perform operation).1 := by
  cases operation with
  | markSpawned =>
      rcases c.markSpawned_cases with ⟨hphase, h⟩ | ⟨_, h⟩ <;> rw [perform, h]
      · exact .spawned hphase
      · exact .same
  | ensureSpawned operation =>
      rcases c.ensureSpawned_cases operation with ⟨_, h⟩ | ⟨_, h⟩ <;> rw [perform, h] <;> exact .same
  | append text =>
      rcases c.append_cases text with ⟨hopen, h⟩ | ⟨_, h⟩ <;> rw [perform, h]
      · exact withText_change c text hopen
      · exact .same
  | appendBytes bytes => exact c.appendBytes_change bytes
  | readStream stream => exact .told stream.readText.2
  | setExitCode code =>
      rcases c.setExitCode_cases code with ⟨hphase, hcode, h⟩ | ⟨_, _, _, h⟩ | ⟨_, h⟩ <;>
        rw [perform, h]
      · exact .coded code hphase hcode
      · exact .same
      · exact .same
  | finalize files =>
      rcases c.finalize_cases files with ⟨code, hphase, hcode, h⟩ | ⟨_, _, h⟩ | ⟨_, h⟩ <;>
        rw [perform, h]
      · -- the exit code was recorded before, and recording it again would change nothing
        have hclosed := Change.closed code files hphase (Or.inr hcode)
        rw [withCode_eq_self hcode] at hclosed
        exact hclosed
      · exact .same
      · exact .same
  | complete files code =>
      rcases c.complete_cases files code with ⟨hphase, hcode, h⟩ | ⟨_, _, _, h⟩ | ⟨_, h⟩ <;>
        rw [perform, h]
      · exact .closed code files hphase (Or.inl hcode)
      · exact .same
      · exact .same

end Core

end TestHarness
