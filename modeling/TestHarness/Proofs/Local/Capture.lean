import TestHarness.Proofs.Local.Wait
import TestHarness.Proofs.Text.Utf8

/-!
# Two ways to capture output

What a test writes reaches the shared state in one of two ways. A runner that replays a test appends the
octets as they are, and what is ill-formed in them is substituted. A local runner reads them back when its
child has ended, and then octets that are not UTF-8 are dropped with an error, and the last line is ended.

The two agree on the finished output exactly for octets that are whole lines of text (`WholeLines`), and
for those they agree on everything else as well (`same_capture`). Neither the sections after the text nor
the repair of NULs can make two different captures look alike: the sections are the same on both sides and
are scrubbed on their own (`Output.scrub_append_sections`), a line end that is added stays, and a text
that is not empty stays so.
-/

namespace TestHarness

/-! ## Texts that differ stay different -/

namespace Scrub

/-- No text becomes empty by `scrub`. -/
theorem scrub_eq_empty_iff (text : String) : scrub text = "" ↔ text = "" := by
  rw [← String.toList_eq_nil_iff, ← String.toList_eq_nil_iff, toList_scrub]
  fun_cases scrubChars text.toList with
  | case1 rest => simp [mark]
  | case2 c rest _ => split <;> simp [mark]
  | case3 => simp

/-- A line end that is added stays: `scrub (text ++ "\n") = scrub text ++ "\n"`. -/
theorem scrub_append_newline (text : String) : scrub (text ++ "\n") = scrub text ++ "\n" := by
  have hfresh : StartsFresh "\n".toList := startsFresh_cons (by decide) (by decide) []
  exact scrub_append hfresh text

end Scrub

/-- **`WholeLines`** — the octets of a text that is empty or ends its last line. -/
def WholeLines (bytes : Bytes) : Prop :=
  (∃ text, bytes = Utf8.encode text) ∧ (bytes = [] ∨ bytes.getLast? = some 0x0A)

theorem wholeLines_encode (text : String) :
    WholeLines (Utf8.encode text) ↔ text = "" ∨ text.toList.getLast? = some '\n' := by
  unfold WholeLines
  rw [Utf8.encode_eq_nil_iff, Utf8.getLast?_encode_eq_iff]
  exact and_iff_right ⟨text, rfl⟩

/-- **Decoding on arrival (`decodeLossy`) and reading back (`Stream.text`)** come to the same scrubbed text
    for `WholeLines` only. -/
theorem scrub_decodeLossy_eq_iff (captured : Stream)
    (hread : ¬ (captured.seekFails ∨ captured.failAt ≠ none)) :
    Scrub.scrub (Utf8.decodeLossy captured.data) = Scrub.scrub captured.text
      ↔ WholeLines captured.data := by
  by_cases hutf : Utf8.wellFormed captured.data = true
  · obtain ⟨text, hdata⟩ := (Utf8.wellFormed_iff _).mp hutf
    obtain ⟨_, htext⟩ := Stream.text_of_encode hread hdata
    rw [htext, hdata, Utf8.decodeLossy_encode, wholeLines_encode, Section.endLine_eq]
    by_cases hline : text = "" ∨ text.toList.getLast? = some '\n'
    · rw [if_pos hline]
      exact iff_of_true rfl hline
    · rw [if_neg hline, Scrub.scrub_append_newline]
      refine iff_of_false ?_ hline
      -- the two sides differ in length
      intro heq
      have hlength := congrArg String.length heq
      rw [String.length_append] at hlength
      exact absurd hlength (by simp)
  · have hill : ¬ WholeLines captured.data := fun h => hutf ((Utf8.wellFormed_iff _).mpr h.1)
    have htext : captured.text = "" := by
      unfold Stream.text Stream.fault?
      rw [if_neg hread, if_neg hutf]
    refine iff_of_false ?_ hill
    -- nothing is read back, but something has arrived
    rw [htext]
    intro hempty
    rw [(Scrub.scrub_eq_empty_iff "").mpr rfl, Scrub.scrub_eq_empty_iff] at hempty
    exact hutf (Utf8.wellFormed_of_decodeLossy hempty)

/-! ## The two runs -/

namespace Core

variable (job : Job) (options : Options)

/-- A run in phase `.spawned` that has no output yet. -/
def opened : Core := { fresh job options with phase := .spawned }

/-- **The finished output of a run of the job** is `scrub c.output` and then the `scrubbedSections`, which are
    the same in every run. -/
theorem output_closed_of_frame {c : Core} (htester : c.job.tester = job.tester)
    (hoptions : c.options = options) (files : FileView) :
    (c.closed files).output
      = Scrub.scrub c.output ++ Output.scrubbedSections files options.output.headerWidth.toNat
          (job.tester.redirectedFiles options) := by
  rw [output_closed, mergedText, Output.scrub_append_sections, headerWidth, redirectedFiles, htester,
    hoptions]

/-- The calls of a runner that replays a test: `markSpawned`, `appendBytes` of the octets, and `complete`. -/
def replay (data : Bytes) (files : FileView) (code : Int) : List Operation :=
  [.markSpawned, .appendBytes data, .complete files code]

/-- The state that a replayed test ends in: `fresh` after the calls of `replay`. -/
def replayed (data : Bytes) (files : FileView) (code : Int) : Core :=
  (fresh job options).run (replay data files code)

/-- The state that has taken the octets as they arrive, by `appendBytes`. -/
def arrived (data : Bytes) : Core :=
  ((opened job options).decoding data).withText (Utf8.decodeLossy data)

theorem frame_arrived (data : Bytes) :
    (arrived job options data).phase = .spawned ∧ (arrived job options data).exitCode = none ∧
    (arrived job options data).job = job ∧ (arrived job options data).options = options ∧
    (arrived job options data).output = Utf8.decodeLossy data := by
  unfold arrived decoding
  split <;> exact ⟨rfl, rfl, rfl, rfl, String.empty_append⟩

/-- **A replayed test**: every call of `replay` succeeds, and the state is `arrived`, then `withCode`, then
    `closed`. -/
theorem run_replay (data : Bytes) (files : FileView) (code : Int) :
    (∀ call ∈ (fresh job options).transcript (replay data files code), call.2 = .ok ()) ∧
    replayed job options data files code
      = ((arrived job options data).withCode code).closed files := by
  obtain ⟨hphase, hcode, _⟩ := frame_arrived job options data
  have hmark : (fresh job options).markSpawned = (opened job options, .ok ()) := rfl
  -- none of the three calls is refused, as the run is spawned and has no exit code
  have happend : (opened job options).appendBytes data = (arrived job options data, .ok ()) := by
    rw [appendBytes_eq]
    rcases ((opened job options).decoding data).append_cases (Utf8.decodeLossy data) with
      ⟨_, h⟩ | ⟨hdone, _⟩
    · exact h
    · rw [phase_decoding] at hdone; cases hdone
  have hcomplete : (arrived job options data).complete files code
      = (((arrived job options data).withCode code).closed files, .ok ()) := by
    rcases (arrived job options data).complete_cases files code with
      ⟨_, _, h⟩ | ⟨_, _, hsome, _⟩ | ⟨hne, _⟩
    · exact h
    · rw [hcode] at hsome; cases hsome
    · exact absurd hphase hne
  constructor
  · intro call hcall
    simp only [replay, transcript, perform, hmark, happend, hcomplete, List.mem_cons, List.not_mem_nil,
      or_false] at hcall
    rcases hcall with rfl | rfl | rfl <;> rfl
  · simp only [replayed, replay, run_cons, perform, hmark, happend, hcomplete]
    rfl

end Core

namespace LocalRunner

variable (job : Job) (options : Options)

/-- The state that has read what the child wrote, by `readStream`. -/
def readBack (captured : Stream) : Core :=
  ((Core.opened job options).readStream captured).1.withText captured.text

theorem frame_readBack (captured : Stream) :
    (readBack job options captured).job.tester = job.tester ∧
    (readBack job options captured).options = options ∧
    (readBack job options captured).output = captured.text := by
  refine ⟨?_, rfl, String.empty_append⟩
  show (job.notifyAll captured.readText.2).tester = job.tester
  rw [Job.tester_notifyAll]

/-- **A test that a local runner runs** to its end within its time ends in `readBack`, then `withCode`, then
    `closed`. -/
theorem wait_launched (pid : Nat) {polls : List Look} {last : Look} {status : ExitStatus}
    (hpolls : ∀ poll ∈ polls, poll.sight = .running ∧ poll.expired = false)
    (hlast : last.sight = .ended status) (timer : Timer) (ending : Ending) :
    ∃ r, ((ofJob job options).launched pid).wait timer (polls ++ [last]) ending
        = some (r, timer.stop ending.now, .ok ()) ∧
      r.core = ((readBack job options ending.captured).withCode status.code).closed ending.files := by
  have hexpired : polls.any (·.expired) = false := by
    rw [List.any_eq_false]
    intro poll hmem
    rw [(hpolls poll hmem).2]
    decide
  have hphase : ((ofJob job options).launched pid).core.phase = .spawned := rfl
  rw [wait_of_ended hphase rfl (fun poll hmem => (hpolls poll hmem).1) hlast, hexpired]
  -- nothing has timed out, so the runner is the launched one with its child gone
  generalize hend : (((ofJob job options).launched pid).withTimedOut _).released = r
  have hphase' : r.core.phase = .spawned := by rw [← hend]; rfl
  have hcore : (r.settled ending.captured).core = readBack job options ending.captured := by
    rw [core_settled (by rw [← hend]; rfl), reportTimeout, ← hend]
    rfl
  rcases conclude_cases hphase' timer status ending with ⟨_, hc⟩ | ⟨_, hsome, _⟩
  · exact ⟨_, by rw [hc], by rw [hcore]⟩
  · rw [← hend] at hsome; cases hsome

/-- `WholeLines` are taken in the same way by both: `readBack` is `arrived`. -/
theorem readBack_eq_arrived {captured : Stream}
    (hread : ¬ (captured.seekFails ∨ captured.failAt ≠ none)) (hlines : WholeLines captured.data) :
    readBack job options captured = Core.arrived job options captured.data := by
  obtain ⟨text, hdata⟩ := hlines.1
  obtain ⟨hfault, htext⟩ := Stream.text_of_encode hread hdata
  rw [hdata, wholeLines_encode] at hlines
  rw [Section.endLine_eq, if_pos hlines] at htext
  have hjob : ((Core.opened job options).readStream captured).1 = Core.opened job options := by
    unfold Core.readStream
    rw [Stream.readText_eq, hfault]
    rfl
  rw [readBack, Core.arrived, Core.decoding, hjob, htext, hdata, if_pos (Utf8.wellFormed_encode text),
    Utf8.decodeLossy_encode]

/-- **Two captures, compared.** Replay the octets `data` of a test on a fresh job, or let a local runner run a
    child that writes them and ends in time. Both runs succeed. Their finished outputs are the same if and
    only if the octets are whole lines of text (`WholeLines`), and then so are their statuses, caveats, exit
    codes and phases. -/
theorem same_capture (data : Bytes) (files : FileView) (status : ExitStatus)
    {polls : List Look} {last : Look}
    (hpolls : ∀ poll ∈ polls, poll.sight = .running ∧ poll.expired = false)
    (hlast : last.sight = .ended status)
    (timer : Timer) (pid : Nat) (start finish : Duration) (position : Nat) :
    (∀ call ∈ (Core.fresh job options).transcript (Core.replay data files status.code),
      call.2 = .ok ()) ∧
    ((ofJob job options).spawn timer (.started pid) start).2.2 = .ok () ∧
    ∃ r, ((ofJob job options).spawn timer (.started pid) start).1.wait
          ((ofJob job options).spawn timer (.started pid) start).2.1 (polls ++ [last])
          { captured := { data, position }, files, now := finish }
        = some (r, (timer.start start).stop finish, .ok ()) ∧
      ((Core.replayed job options data files status.code).output = r.core.output
        ↔ (∃ text, data = Utf8.encode text) ∧ (data = [] ∨ data.getLast? = some 0x0A)) ∧
      ((Core.replayed job options data files status.code).output = r.core.output →
        (Core.replayed job options data files status.code).job.status = r.core.job.status ∧
        (Core.replayed job options data files status.code).job.caveats = r.core.job.caveats ∧
        (Core.replayed job options data files status.code).exitCode = r.core.exitCode ∧
        (Core.replayed job options data files status.code).phase = r.core.phase) := by
  obtain ⟨hok, hreplayed⟩ := Core.run_replay job options data files status.code
  obtain ⟨r, hwait, hcore⟩ := wait_launched job options pid hpolls hlast (timer.start start)
    { captured := { data, position }, files, now := finish }
  have hread : ¬ (({ data, position } : Stream).seekFails ∨ ({ data, position } : Stream).failAt ≠ none) :=
    by simp
  obtain ⟨_, _, hjob, hoptions, harrived⟩ := Core.frame_arrived job options data
  obtain ⟨htester, hoptions', hback⟩ := frame_readBack job options { data, position }
  -- the sections are the same on both sides, so only the texts of the two captures count
  have houtputs : (Core.replayed job options data files status.code).output = r.core.output
      ↔ WholeLines data := by
    rw [hreplayed, hcore,
      Core.output_closed_of_frame job options (c := (Core.arrived job options data).withCode status.code)
        (congrArg Job.tester hjob) hoptions,
      Core.output_closed_of_frame job options
        (c := (readBack job options { data, position }).withCode status.code) htester hoptions',
      String.append_left_inj]
    show Scrub.scrub (Core.arrived job options data).output
      = Scrub.scrub (readBack job options { data, position }).output ↔ _
    rw [harrived, hback]
    exact scrub_decodeLossy_eq_iff { data, position } hread
  rw [spawn_started (r := ofJob job options) rfl timer pid start]
  refine ⟨hok, rfl, r, hwait, houtputs, fun heq => ?_⟩
  have hsame : Core.replayed job options data files status.code = r.core := by
    rw [hreplayed, hcore, readBack_eq_arrived job options hread (houtputs.mp heq)]
  rw [hsame]
  exact ⟨rfl, rfl, rfl, rfl⟩

/-- The line `a\x00` with its NUL, written by a test whose redirected file is missing. -/
theorem same_capture_of_line :
    ∃ r, LocalRunner.wait
        { core := { job := { tester := Tester.plan { name := "t", command := .ofProgram []
                                                     redirectOutput := true } }
                    phase := .spawned }
          child := some 7, capturing := true }
        { started := some 0 } ([{ sight := .running }] ++ [{ sight := .ended (.exited 3) }])
        { captured := { data := [0x61, 0, 0x0A], position := 3 }, files := fun _ => none, now := 5 }
          = some (r, { started := some 0, stopped := some 5 }, .ok ()) ∧
      (Core.replayed
        { tester := Tester.plan { name := "t", command := .ofProgram [], redirectOutput := true } } {}
        [0x61, 0, 0x0A] (fun _ => none) (ExitStatus.exited 3).code).output = r.core.output ∧
      r.core.job.status = (Core.replayed
        { tester := Tester.plan { name := "t", command := .ofProgram [], redirectOutput := true } } {}
        [0x61, 0, 0x0A] (fun _ => none) (ExitStatus.exited 3).code).job.status := by
  obtain ⟨_, _, r, hwait, houtputs, hrest⟩ := @same_capture
    { tester := Tester.plan { name := "t", command := .ofProgram [], redirectOutput := true } } {}
    [0x61, 0, 0x0A] (fun _ => none) (.exited 3) [{ sight := .running }] { sight := .ended (.exited 3) }
    (by decide) rfl {} 7 0 5 3
  have hequal := houtputs.mpr ⟨⟨"a\x00\n", by decide⟩, Or.inr rfl⟩
  exact ⟨r, hwait, hequal, (hrest hequal).1.symm⟩

end LocalRunner

end TestHarness
