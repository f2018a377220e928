import TestHarness.Proofs.Core.Refusals
import TestHarness.Proofs.Text.Chunks

/-!
# Output that is decoded as it arrives

Octets that a run takes are decoded at once, piece by piece, and an ill-formed piece leaves a mark that is
read when the output is finished. Two questions come up.

* Does it matter how the octets are cut into pieces? Only if a cut goes through a character, and then the
  output itself tells (`append_in_pieces`).
* Does the job learn of a substitution exactly if there was one? It does: the mark is set by ill-formed
  octets and by nothing else, no call before the finishing makes a caveat, and no call after it makes
  another (`substitution_caveat`).
-/

namespace TestHarness

/-- Whether a call brings octets in which characters have to be substituted: `appendBytes` of ill-formed
    ones. -/
def Operation.substitutes : Operation → Bool
  | .appendBytes bytes => !Utf8.wellFormed bytes
  | _ => false

namespace Core

/-! ## Taking octets -/

theorem replacedInvalid_decoding (c : Core) (bytes : Bytes) :
    (c.decoding bytes).replacedInvalid = (c.replacedInvalid || !Utf8.wellFormed bytes) := by
  unfold decoding
  cases Utf8.wellFormed bytes with
  | true => exact (Bool.or_false _).symm
  | false => exact (Bool.or_true _).symm

/-- **An open run takes all octets**: `appendBytes` is `decoding`, then `withText` of the decoded octets. -/
theorem appendBytes_of_open {c : Core} (hopen : c.phase ≠ .completed) (bytes : Bytes) :
    c.appendBytes bytes = ((c.decoding bytes).withText (Utf8.decodeLossy bytes), .ok ()) := by
  rw [appendBytes_eq]
  rcases (c.decoding bytes).append_cases (Utf8.decodeLossy bytes) with ⟨_, h⟩ | ⟨hdone, _⟩
  · exact h
  · rw [phase_decoding] at hdone
    exact absurd hdone hopen

/-- What is left of the state when the output is open and octets are taken: `output` and `replacedInvalid`
    have changed. -/
theorem decoding_withText (c : Core) (bytes : Bytes) :
    (c.decoding bytes).withText (Utf8.decodeLossy bytes)
      = { c with
          output := c.output ++ Utf8.decodeLossy bytes
          replacedInvalid := c.replacedInvalid || !Utf8.wellFormed bytes } := by
  unfold decoding
  cases Utf8.wellFormed bytes with
  | true => rw [Bool.not_true, Bool.or_false]; rfl
  | false => rw [Bool.not_false, Bool.or_true]; rfl

/-- **Pieces.** A run that is not completed takes the octets `a ++ b` in two pieces or in one, and all three
    calls succeed. The output is the same if and only if the cut between the pieces goes through no character
    (`CutsCharacter`). Where the output is the same, so is the whole state: the mark of a substitution is the
    same, and with it the caveat that finishing makes. -/
theorem append_in_pieces {c : Core} (hopen : c.phase ≠ .completed) (a b : Bytes) :
    let first := c.appendBytes a
    let pieces := first.1.appendBytes b
    let whole := c.appendBytes (a ++ b)
    first.2 = .ok () ∧ pieces.2 = .ok () ∧ whole.2 = .ok () ∧
    (pieces.1.output = whole.1.output ↔ ¬ Utf8.CutsCharacter a b) ∧
    (pieces.1.output = whole.1.output →
      pieces.1.replacedInvalid = whole.1.replacedInvalid ∧ pieces.1 = whole.1) := by
  intro first pieces whole
  have hfirst : first = _ := appendBytes_of_open hopen a
  have hwhole : whole = _ := appendBytes_of_open hopen (a ++ b)
  rw [decoding_withText] at hfirst hwhole
  have hopen' : first.1.phase ≠ .completed := by rw [hfirst]; exact hopen
  have hpieces : pieces = _ := appendBytes_of_open hopen' b
  rw [decoding_withText, hfirst] at hpieces
  have houtput : pieces.1.output = whole.1.output ↔ ¬ Utf8.CutsCharacter a b := by
    rw [hpieces, hwhole, ← Utf8.decodeLossy_append_iff]
    show c.output ++ Utf8.decodeLossy a ++ Utf8.decodeLossy b = c.output ++ Utf8.decodeLossy (a ++ b) ↔ _
    rw [String.append_assoc, String.append_right_inj]
  -- with equal output no character was cut, so the pieces are well-formed exactly if the whole is
  have hstate : pieces.1.output = whole.1.output → pieces.1 = whole.1 := by
    intro hsame
    have hcut := houtput.mp hsame
    have hmark : (c.replacedInvalid || !Utf8.wellFormed a || !Utf8.wellFormed b)
        = (c.replacedInvalid || !Utf8.wellFormed (a ++ b)) := by
      rw [Utf8.wellFormed_append hcut, Bool.not_and, Bool.or_assoc]
    have htext := (Utf8.decodeLossy_append_iff a b).mpr hcut
    rw [hpieces, hwhole]
    show ({ c with
      output := c.output ++ Utf8.decodeLossy a ++ Utf8.decodeLossy b
      replacedInvalid := c.replacedInvalid || !Utf8.wellFormed a || !Utf8.wellFormed b } : Core) = _
    rw [hmark, String.append_assoc, htext]
  refine ⟨?_, ?_, ?_, houtput, fun hsame => ⟨congrArg replacedInvalid (hstate hsame), hstate hsame⟩⟩
  · rw [hfirst]
  · rw [hpieces]
  · rw [hwhole]

/-- The euro sign, octets `E2 82 AC`, cut behind its second octet: two characters for one. Cut in front of
    `41`, which does not go on with it, nothing changes, and the substitution is marked either way. -/
theorem append_in_pieces_of_euro :
    (fresh { tester := Tester.plan { name := "t", command := .ofProgram [] } } {}).phase ≠ .completed ∧
    (let c := fresh { tester := Tester.plan { name := "t", command := .ofProgram [] } } {}
     ((c.appendBytes [0xE2, 0x82]).1.appendBytes [0xAC]).1.output
        ≠ (c.appendBytes [0xE2, 0x82, 0xAC]).1.output ∧
     ((c.appendBytes [0xE2, 0x82]).1.appendBytes [0x41]).1
        = (c.appendBytes [0xE2, 0x82, 0x41]).1) := by
  have hopen : (fresh { tester := Tester.plan { name := "t", command := .ofProgram [] } } {}).phase
      ≠ .completed := by
    decide
  obtain ⟨_, _, _, hcut, _⟩ := append_in_pieces hopen [0xE2, 0x82] [0xAC]
  obtain ⟨_, _, _, _, hsame⟩ := append_in_pieces hopen [0xE2, 0x82] [0x41]
  refine ⟨hopen, fun heq => hcut.mp heq ?_, (hsame (by decide)).2⟩
  exact ⟨[], [0xE2, 0x82], 0xAC, [], rfl, by decide, rfl, '€', by decide⟩

/-! ## The caveat -/

theorem caveats_addCaveat_of_nil {j : Job} (h : j.caveats = []) (text : String) :
    (j.addCaveat text).caveats = [text] := by
  rw [Job.addCaveat, if_neg (by rw [h]; exact List.not_mem_nil), h]
  rfl

/-- Finishing makes one caveat at most, `invalidCharacters`, and makes it of the mark `replacedInvalid`. -/
theorem caveats_closed (c : Core) (files : FileView) :
    (c.closed files).job.caveats
      = if c.replacedInvalid then (c.job.addCaveat Output.invalidCharacters).caveats else c.job.caveats := by
  show (c.job.notifyAll (c.finished files).2).caveats = _
  have hnul : ∀ repaired, Output.nulNotices repaired
      = (if repaired then [Output.nulCharacters] else []).map Notice.status := by
    intro repaired
    cases repaired <;> rfl
  rw [finished, Output.finish_snd, Job.notifyAll_append, Job.notifyAll_append, hnul,
    Job.caveats_notifyAll_status]
  cases c.replacedInvalid with
  | false => exact Job.caveats_notifyAll_status c.job _
  | true =>
      -- the statuses in front of it do not touch the caveats that it is compared with
      have hfiles := Job.caveats_notifyAll_status c.job
        (c.redirectedFiles.filterMap (Output.fault? files))
      generalize c.job.notifyAll _ = j at hfiles ⊢
      show (j.addCaveat Output.invalidCharacters).caveats = (c.job.addCaveat Output.invalidCharacters).caveats
      unfold Job.addCaveat
      rw [hfiles]
      split
      · exact hfiles
      · rfl

/-- **One call before the end** makes no caveat, and sets `replacedInvalid` if it `substitutes` characters. -/
theorem perform_of_open {c : Core} {operation : Operation}
    (hopen : (c.perform operation).1.phase ≠ .completed) :
    (c.perform operation).1.job.caveats = c.job.caveats ∧
    (c.perform operation).1.replacedInvalid = (c.replacedInvalid || operation.substitutes) := by
  -- all calls but the one that appends octets leave the caveats and the mark alone
  have hsame : ∀ {c' : Core}, c'.job = c.job → c'.replacedInvalid = c.replacedInvalid →
      operation.substitutes = false → c'.job.caveats = c.job.caveats ∧
      c'.replacedInvalid = (c.replacedInvalid || operation.substitutes) := by
    intro c' hjob hmark hnone
    exact ⟨by rw [hjob], by rw [hmark, hnone, Bool.or_false]⟩
  cases operation with
  | markSpawned =>
      rcases c.markSpawned_cases with ⟨_, h⟩ | ⟨_, h⟩ <;> rw [perform, h] <;> exact hsame rfl rfl rfl
  | ensureSpawned operation => exact hsame rfl rfl rfl
  | append text =>
      rcases c.append_cases text with ⟨_, h⟩ | ⟨_, h⟩ <;> rw [perform, h] <;> exact hsame rfl rfl rfl
  | appendBytes bytes =>
      have hcaveats : (c.decoding bytes).job.caveats = c.job.caveats :=
        congrArg Job.caveats (c.job_decoding bytes)
      rw [perform, appendBytes_eq]
      rcases (c.decoding bytes).append_cases (Utf8.decodeLossy bytes) with ⟨_, h⟩ | ⟨_, h⟩ <;> rw [h] <;>
        exact ⟨hcaveats, c.replacedInvalid_decoding bytes⟩
  | readStream stream =>
      refine ⟨?_, (Bool.or_false _).symm⟩
      show (c.job.notifyAll stream.readText.2).caveats = _
      rw [Stream.readText_eq]
      exact c.job.caveats_notifyAll_status _
  | setExitCode code =>
      rcases c.setExitCode_cases code with ⟨_, _, h⟩ | ⟨_, _, _, h⟩ | ⟨_, h⟩ <;> rw [perform, h] <;>
        exact hsame rfl rfl rfl
  | finalize files =>
      rcases c.finalize_cases files with ⟨_, _, _, h⟩ | ⟨_, _, h⟩ | ⟨_, h⟩ <;> rw [perform, h] at hopen ⊢
      · exact absurd rfl hopen
      · exact hsame rfl rfl rfl
      · exact hsame rfl rfl rfl
  | complete files code =>
      rcases c.complete_cases files code with ⟨_, _, h⟩ | ⟨_, _, _, h⟩ | ⟨_, h⟩ <;>
        rw [perform, h] at hopen ⊢
      · exact absurd rfl hopen
      · exact hsame rfl rfl rfl
      · exact hsame rfl rfl rfl

/-- **All calls before the end** make no caveat, and `replacedInvalid` is set if one of them `substitutes`. -/
theorem run_of_open {c : Core} {calls : List Operation} (hopen : (c.run calls).phase ≠ .completed) :
    (c.run calls).job.caveats = c.job.caveats ∧
    (c.run calls).replacedInvalid = (c.replacedInvalid || calls.any Operation.substitutes) := by
  induction calls generalizing c with
  | nil => exact ⟨rfl, (Bool.or_false _).symm⟩
  | cons operation rest ih =>
      rw [run_cons] at hopen ⊢
      have hstep : (c.perform operation).1.phase ≠ .completed := fun hdone =>
        hopen (run_completed hdone rest).1
      obtain ⟨hcaveats, hmark⟩ := perform_of_open hstep
      obtain ⟨hcaveats', hmark'⟩ := ih hopen
      rw [hcaveats', hcaveats, hmark', hmark, List.any_cons, Bool.or_assoc]
      exact ⟨rfl, rfl⟩

theorem any_substitutes_iff (calls : List Operation) :
    calls.any Operation.substitutes = true ↔
      ∃ bytes, .appendBytes bytes ∈ calls ∧ ¬ ∃ text, bytes = Utf8.encode text := by
  have hform : ∀ bytes, (!Utf8.wellFormed bytes) = true ↔ ¬ ∃ text, bytes = Utf8.encode text := by
    intro bytes
    rw [← Utf8.wellFormed_iff, Bool.not_eq_true', Bool.not_eq_true]
  rw [List.any_eq_true]
  constructor
  · rintro ⟨operation, hmem, hsubstitutes⟩
    cases operation with
    | appendBytes bytes => exact ⟨bytes, hmem, (hform bytes).mp hsubstitutes⟩
    | _ => cases hsubstitutes
  · rintro ⟨bytes, hmem, hill⟩
    exact ⟨_, hmem, (hform bytes).mpr hill⟩

/-- Well-formed octets are taken as the text that they encode, U+FFFD included:
    `appendBytes (Utf8.encode text)` is `append text`. -/
theorem appendBytes_encode (c : Core) (text : String) : c.appendBytes (Utf8.encode text) = c.append text := by
  rw [appendBytes_eq, decoding, if_pos (Utf8.wellFormed_encode text), Utf8.decodeLossy_encode]

/-- **The caveat on substitutions.** Take any calls on a fresh job and state, then one that finishes the
    output with success, and then any further calls. The job has the caveat `invalid characters in output` at
    the end, and has it once, if octets were appended before the finishing that are no encoding of a text, and
    it has no caveat otherwise. Up to the finishing it has none.

    Well-formed octets are appended as the very text that they encode, and leave the same state as that text
    does. So U+FFFD in a text, or written out in octets, is no substitution. -/
theorem substitution_caveat (tester : TestPlan) (options : Options) (before after : List Operation)
    (files : FileView) (last : Operation)
    (hlast : last = .finalize files ∨ ∃ code, last = .complete files code)
    (hok : (((fresh { tester } options).run before).perform last).2 = .ok ()) :
    let start := fresh { tester } options
    let finished := start.run (before ++ last :: after)
    let illFormed := ∃ bytes, .appendBytes bytes ∈ before ∧ ¬ ∃ text, bytes = Utf8.encode text
    (illFormed → finished.job.caveats = ["invalid characters in output"]) ∧
    (¬ illFormed → finished.job.caveats = []) ∧
    (∀ first rest, before = first ++ rest → (start.run first).job.caveats = []) ∧
    (∀ (c : Core) (bytes : Bytes), (∃ text, bytes = Utf8.encode text) →
      c.appendBytes bytes = c.append (Utf8.decodeLossy bytes) ∧
      Utf8.encode (Utf8.decodeLossy bytes) = bytes) := by
  intro start finished illFormed
  obtain ⟨hphase, code, hclosed⟩ := perform_finishing hlast hok
  have hopen : (start.run before).phase ≠ .completed := by rw [hphase]; decide
  obtain ⟨hcaveats, hmark⟩ := run_of_open hopen
  have hnone : (start.run before).job.caveats = [] := hcaveats
  have hmark : (start.run before).replacedInvalid = true ↔ illFormed := by
    rw [hmark]
    exact any_substitutes_iff before
  -- calls after the end may leave a mark, but it never becomes a caveat
  have hend : finished.job.caveats
      = if (start.run before).replacedInvalid then [Output.invalidCharacters] else [] := by
    show (start.run (before ++ last :: after)).job.caveats = _
    have hdone : (((start.run before).withCode code).closed files).phase = .completed := rfl
    rw [run_append, run_cons, hclosed, caveats_run_of_completed hdone, caveats_closed]
    show (if (start.run before).replacedInvalid then
      ((start.run before).job.addCaveat Output.invalidCharacters).caveats
      else (start.run before).job.caveats) = _
    rw [caveats_addCaveat_of_nil hnone, hnone]
  refine ⟨?_, ?_, ?_, ?_⟩
  · intro hill
    rw [hend, if_pos (hmark.mpr hill)]
    rfl
  · intro hwell
    rw [hend, if_neg fun h => hwell (hmark.mp h)]
  · intro first rest hbefore
    have hopen' : (start.run first).phase ≠ .completed := fun hdone => by
      rw [hbefore, run_append] at hopen
      exact hopen (run_completed hdone rest).1
    exact (run_of_open hopen').1
  · rintro c bytes ⟨text, rfl⟩
    rw [Utf8.decodeLossy_encode]
    exact ⟨c.appendBytes_encode text, rfl⟩

/-- Two ill-formed pieces and a text with U+FFFD before `finalize`, and a third piece after it. -/
theorem substitution_caveat_of_two :
    ((fresh { tester := Tester.plan { name := "t", command := .ofProgram [] } } {}).run
      ([.markSpawned, .appendBytes [0x61, 0xFF], .append "\uFFFD", .appendBytes [0xEF, 0xBF, 0xBD],
          .appendBytes [0xC3]]
        ++ .complete (fun _ => none) 0 :: [.appendBytes [0x80]])).job.caveats
      = ["invalid characters in output"] :=
  (substitution_caveat _ _ _ _ _ _ (Or.inr ⟨0, rfl⟩) (by decide +kernel)).1
    ⟨[0xC3], by simp, fun h => absurd ((Utf8.wellFormed_iff _).mpr h) (by decide +kernel)⟩

end Core

end TestHarness
