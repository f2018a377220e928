import TestHarness.Proofs.Core.Amends
import TestHarness.Proofs.Interleaving.Run
import TestHarness.Proofs.Local.Wait

/-!
# The history of a local runner

One thread makes any calls of a local runner, mixed with direct calls of the shared state, and each call
is kept with the runner that it found and with its result. From such a history it can be read off what has
been started, which wait has seen the child's end, and which texts have been added to the output.

The runner's own fields and the shared state may be driven apart: a run can be completed while its child
still runs, marked as spawned without a child, or given an exit code before the wait. So two invariants
are kept apart as well. `Stage` ties the child and its output to the history, and `Written` ties the output
of the run to it. The second one needs the first in one place: the wait that sees the child's end still has
the child's output to read.

## Contents
* `Made`, `Makes` and what is read off a call
* `Waited`, what a wait has come to
* `Stage` and `Written`, each with its step
* `one_start_one_end`
-/

namespace TestHarness

namespace LocalRunner

/-! ## Calls that were made -/

/-- Whether a call is a `spawn`, the one that starts the child. -/
def Call.isSpawn : Call → Bool
  | .spawn .. => true
  | _ => false

/-- Whether a call is a `wait`, the one that sees the child's end. -/
def Call.isWait : Call → Bool
  | .wait .. => true
  | _ => false

/-- A `call` that was made, with the runner that it `found` and with its `result`. -/
structure Made where
  found : LocalRunner
  call : Call
  result : Except RunnerError Unit

/-- One call as a step of the runner, `r.perform call = some (r', result)`. A wait that does not end is no
    step. -/
inductive Makes (r : LocalRunner) : Made → LocalRunner → Prop where
  | made {call : Call} {result : Except RunnerError Unit} {r' : LocalRunner} :
      r.perform call = some (r', result) → Makes r ⟨r, call, result⟩ r'

/-- The child's end, as a wait with `looks` sees it: the verdict of `watch`. A wait looks in phase `.spawned`
    only. -/
def endSeen? (r : LocalRunner) (looks : List Look) : Option ExitStatus :=
  if r.core.phase = .spawned then
    match (watch { runner := r } looks).2.2 with
    | .ended status => some status
    | .running | .failed _ => none
  else none

namespace Made

/-- The process `pid` that a call starts. The command is run in phase `.created` only. -/
def started? (m : Made) : Option Nat :=
  match m.call with
  | .spawn _ (.started pid) _ => if m.found.core.phase = .created then some pid else none
  | _ => none

/-- The child's end, if the call is the wait that sees it (`endSeen?`). -/
def seen? (m : Made) : Option ExitStatus :=
  match m.call with
  | .wait _ looks _ => m.found.endSeen? looks
  | _ => none

/-- The text that a call adds to the output: `acceptedText?` of a direct call that succeeds, and what the
    child has written (`ending.captured`) if it is the wait that sees the child's end, whatever comes of that
    wait. -/
def text? (m : Made) : Option String :=
  match m.call with
  | .core operation => acceptedText? (operation, m.result)
  | .wait _ looks ending => (m.found.endSeen? looks).map fun _ => ending.captured.readText.1
  | _ => none

/-- The files of the moment at which a call finishes the output: `finishedWith?` of a direct call,
    `ending.files` of a wait that succeeds. -/
def files? (m : Made) : Option FileView :=
  match m.call, m.result with
  | .core operation, result => finishedWith? (operation, result)
  | .wait _ _ ending, .ok () => some ending.files
  | _, _ => none

end Made

/-! ## Waits that end -/

/-- The runner of a wait that has seen the child's end (`released`) and read what the child wrote
    (`settled`). -/
def parted (r : LocalRunner) (timedOut : Bool) (captured : Stream) : LocalRunner :=
  (r.withTimedOut timedOut).released.settled captured

/-- **`Waited`** — what a wait that ends has come to, as the runner after it and its result. -/
inductive Waited (r : LocalRunner) (looks : List Look) (ending : Ending) :
    LocalRunner → Except RunnerError Unit → Prop where
  /-- The wait was refused, or a look has failed: `r.endSeen? looks = none`. -/
  | unseen (timedOut : Bool) (e : RunnerError) : r.endSeen? looks = none →
      Waited r looks ending (r.withTimedOut timedOut) (.error e)
  | succeeded (timedOut : Bool) {pid : Nat} {status : ExitStatus} :
      r.endSeen? looks = some status → r.core.phase = .spawned → r.child = some pid →
      r.core.exitCode = none →
      Waited r looks ending
        { r.parted timedOut ending.captured with
            core := ((r.parted timedOut ending.captured).core.withCode status.code).closed ending.files }
        (.ok ())
  /-- Somebody has recorded an `exitCode` before. -/
  | conflicted (timedOut : Bool) {pid : Nat} {status : ExitStatus} {existing : Int} :
      r.endSeen? looks = some status → r.core.phase = .spawned → r.child = some pid →
      r.core.exitCode = some existing →
      Waited r looks ending (r.parted timedOut ending.captured) (.error (.exitCodeAlreadySet existing))

theorem waited {r r' : LocalRunner} {timer : Timer} {looks : List Look} {ending : Ending}
    {result : Except RunnerError Unit}
    (hcall : r.perform (.wait timer looks ending) = some (r', result)) :
    Waited r looks ending r' result := by
  obtain ⟨end_, hwait, heq⟩ := Option.map_eq_some_iff.mp hcall
  cases heq
  -- the refused wait, the one that never ends, the one that fails, and the one that sees the end
  rcases r.wait_cases timer looks ending with
    ⟨hphase, hw⟩ | ⟨_, _, hw⟩ | ⟨timedOut, e, hphase, hverdict, hw⟩
      | ⟨timedOut, status, hphase, hverdict, hw⟩
  · rw [hw] at hwait
    cases hwait
    have hunseen : r.endSeen? looks = none := if_neg hphase
    exact .unseen r.timedOut _ hunseen
  · rw [hw] at hwait
    cases hwait
  · rw [hw] at hwait
    cases hwait
    have hunseen : r.endSeen? looks = none := by rw [endSeen?, if_pos hphase, hverdict]
    exact .unseen timedOut e hunseen
  · rw [hw] at hwait
    cases hwait
    have hseen : r.endSeen? looks = some status := by rw [endSeen?, if_pos hphase, hverdict]
    obtain ⟨pid, hchild⟩ := child_of_watch_ended hverdict
    have hphase' : (r.withTimedOut timedOut).released.core.phase = .spawned := hphase
    rcases conclude_cases hphase' timer status ending with ⟨hnone, hc⟩ | ⟨existing, hcode, hc⟩ <;> rw [hc]
    · exact .succeeded timedOut hseen hphase hchild hnone
    · exact .conflicted timedOut hseen hphase hchild hcode

theorem amends_parted {r : LocalRunner} (hphase : r.core.phase = .spawned)
    (hcap : r.capturing = true) (timedOut : Bool) (captured : Stream) :
    Core.Amends r.core (some captured.readText.1) none (r.parted timedOut captured).core := by
  have hcap' : (r.withTimedOut timedOut).released.capturing = true := hcap
  obtain ⟨houtput, hoptions, htester, _⟩ := (r.withTimedOut timedOut).released.core_reportTimeout
  have hstays : (r.parted timedOut captured).core.phase = .spawned := by
    rw [parted, phase_settled]
    exact hphase
  -- the run is still spawned, so only the clauses about an open run say something
  refine ⟨?_, ?_, ?_, ?_, nofun, ?_⟩
  · rw [parted, core_settled hcap']
    exact (Job.tester_notifyAll _ _).trans htester
  · rw [parted, core_settled hcap']
    exact hoptions
  · intro _
    rw [hstays]
    decide
  · intro _ _
    rw [hstays]
    refine ⟨by decide, ?_⟩
    rw [parted, core_settled hcap', Stream.readText_eq]
    exact congrArg (· ++ captured.text) houtput
  · intro hdone
    rw [hphase] at hdone
    cases hdone

/-! ## One call -/

/-- **Each call amends the shared state** by its `text?` and its `files?`, if the output of a held child is
    held. -/
theorem Makes.amends {r r' : LocalRunner} {m : Made} (h : Makes r m r')
    (hheld : ∀ pid, r.child = some pid → r.capturing = true) :
    Core.Amends r.core m.text? m.files? r'.core := by
  obtain @⟨call, result, _, hcall⟩ := h
  cases call with
  | spawn timer start now =>
      cases hcall
      rcases r.spawn_cases timer start now with ⟨pid, hphase, _, hs⟩ | ⟨e, hs⟩ <;> rw [hs]
      · exact Core.amends_spawned hphase
      · exact r.core.amends_self
  | wait timer looks ending =>
      cases waited hcall with
      -- the text is read off the wait as the child's end is seen
      | unseen timedOut e hunseen =>
          show Core.Amends r.core ((r.endSeen? looks).map fun _ => _) none r.core
          rw [hunseen]
          exact r.core.amends_self
      | succeeded timedOut hseen hphase hchild hnone =>
          show Core.Amends r.core ((r.endSeen? looks).map fun _ => _) (some ending.files) _
          rw [hseen]
          exact (amends_parted hphase (hheld _ hchild) timedOut ending.captured).closed hphase _ _
      | conflicted timedOut hseen hphase hchild hcode =>
          show Core.Amends r.core ((r.endSeen? looks).map fun _ => _) none _
          rw [hseen]
          exact amends_parted hphase (hheld _ hchild) timedOut ending.captured
  | kill =>
      cases hcall
      rcases r.kill_cases with ⟨_, _, hk⟩ | ⟨_, hk⟩ <;> rw [hk] <;> exact r.core.amends_self
  | sendSignal signal delivery =>
      cases hcall
      exact r.core.amends_self
  | core operation =>
      cases hcall
      exact r.core.amends_perform operation
  | notify notice =>
      cases hcall
      exact r.core.amends_notify notice

/-! ## The child and its output -/

/-- **`Stage`** — how `child` and `capturing` stand after the history `trace`: nothing has been started yet,
    or one process has been started (`Made.started?`) and its end not been seen, or its end has been seen by
    one wait (`Made.seen?`). -/
inductive Stage (trace : List Made) (r : LocalRunner) : Prop where
  | unstarted : trace.filterMap Made.started? = [] → trace.filterMap Made.seen? = [] →
      r.child = none → r.capturing = false → Stage trace r
  | started (pid : Nat) : trace.filterMap Made.started? = [pid] → trace.filterMap Made.seen? = [] →
      r.child = some pid → r.capturing = true → r.core.phase ≠ .created → Stage trace r
  | gone (pid : Nat) (status : ExitStatus) : trace.filterMap Made.started? = [pid] →
      trace.filterMap Made.seen? = [status] →
      r.child = none → r.capturing = false → r.core.phase ≠ .created → Stage trace r

variable {trace : List Made} {r r' : LocalRunner} {m : Made}

/-- The output of a held child is held: `r.child = some pid` makes `r.capturing = true`. -/
theorem Stage.capturing (h : Stage trace r) {pid : Nat} (hchild : r.child = some pid) :
    r.capturing = true := by
  cases h with
  | unstarted _ _ hnone _ => rw [hnone] at hchild; cases hchild
  | started _ _ _ _ hcap _ => exact hcap
  | gone _ _ _ _ hnone _ _ => rw [hnone] at hchild; cases hchild

theorem Stage.starts (h : Stage trace r) : (trace.filterMap Made.started?).length ≤ 1 := by
  cases h with
  | unstarted hs _ _ _ => rw [hs]; exact Nat.zero_le 1
  | started _ hs _ _ _ _ => rw [hs]; exact Nat.le_refl 1
  | gone _ _ hs _ _ _ _ => rw [hs]; exact Nat.le_refl 1

theorem Stage.ends (h : Stage trace r) : (trace.filterMap Made.seen?).length ≤ 1 := by
  cases h with
  | unstarted _ he _ _ => rw [he]; exact Nat.zero_le 1
  | started _ _ he _ _ _ => rw [he]; exact Nat.zero_le 1
  | gone _ _ _ he _ _ _ => rw [he]; exact Nat.le_refl 1

/-- A child whose end was seen is held no more: `r.child = none`. -/
theorem Stage.child_of_seen (h : Stage trace r) (hmem : m ∈ trace) (hseen : m.seen?.isSome = true) :
    r.child = none := by
  obtain ⟨status, hstatus⟩ := Option.isSome_iff_exists.mp hseen
  have hin : status ∈ trace.filterMap Made.seen? := List.mem_filterMap.mpr ⟨m, hmem, hstatus⟩
  cases h with
  | unstarted _ _ hnone _ => exact hnone
  | started _ _ he _ _ _ => rw [he] at hin; cases hin
  | gone _ _ _ _ hnone _ _ => exact hnone

/-- A call with neither `started?` nor `seen?`, which leaves `child` and `capturing` alone, keeps the
    stage. -/
theorem Stage.aside (h : Stage trace r) (hstarted : m.started? = none) (hseen : m.seen? = none)
    (hchild : r'.child = r.child) (hcap : r'.capturing = r.capturing)
    (hbegun : r.core.phase ≠ .created → r'.core.phase ≠ .created) : Stage (trace ++ [m]) r' := by
  have hstarts : (trace ++ [m]).filterMap Made.started? = trace.filterMap Made.started? := by
    rw [filterMap_snoc, hstarted]
    exact List.append_nil _
  have hends : (trace ++ [m]).filterMap Made.seen? = trace.filterMap Made.seen? := by
    rw [filterMap_snoc, hseen]
    exact List.append_nil _
  cases h with
  | unstarted hs he hc hp =>
      exact .unstarted (hstarts.trans hs) (hends.trans he) (hchild.trans hc) (hcap.trans hp)
  | started pid hs he hc hp hb =>
      exact .started pid (hstarts.trans hs) (hends.trans he) (hchild.trans hc) (hcap.trans hp) (hbegun hb)
  | gone pid status hs he hc hp hb =>
      exact .gone pid status (hstarts.trans hs) (hends.trans he) (hchild.trans hc) (hcap.trans hp)
        (hbegun hb)

/-- A start succeeds in phase `.created`, and there nothing has been started, so `launched` moves `unstarted`
    on. -/
theorem Stage.launch (h : Stage trace r) {pid : Nat} (hphase : r.core.phase = .created)
    (hstarted : m.started? = some pid) (hseen : m.seen? = none) :
    Stage (trace ++ [m]) (r.launched pid) := by
  cases h with
  | unstarted hs he _ _ =>
      refine .started pid ?_ ?_ rfl rfl nofun
      · rw [filterMap_snoc, hstarted, hs]; rfl
      · rw [filterMap_snoc, hseen, he]; rfl
  | started _ _ _ _ _ hbegun => exact absurd hphase hbegun
  | gone _ _ _ _ _ _ hbegun => exact absurd hphase hbegun

/-- The child's end is seen while the child is held, so the stage after it is the last one. -/
theorem Stage.part (h : Stage trace r) {pid : Nat} {status : ExitStatus} (hchild : r.child = some pid)
    (hstarted : m.started? = none) (hseen : m.seen? = some status) (hnone : r'.child = none)
    (hcap : r'.capturing = false) (hbegun : r.core.phase ≠ .created → r'.core.phase ≠ .created) :
    Stage (trace ++ [m]) r' := by
  cases h with
  | unstarted _ _ hc _ => rw [hc] at hchild; cases hchild
  | started pid hs he _ _ hb =>
      refine .gone pid status ?_ ?_ hnone hcap (hbegun hb)
      · rw [filterMap_snoc, hstarted, hs]; rfl
      · rw [filterMap_snoc, hseen, he]; rfl
  | gone _ _ _ _ hc _ _ => rw [hc] at hchild; cases hchild

/-- A `spawn` that fails has `started?` nothing. -/
theorem started?_of_error {timer timer' : Timer} {start : Start} {now : Duration} {e : RunnerError}
    (hs : r.spawn timer start now = (r, timer', .error e)) (result : Except RunnerError Unit) :
    Made.started? ⟨r, .spawn timer start now, result⟩ = none := by
  cases start with
  | noCapture reason => rfl
  | refused reason => rfl
  | started pid =>
      refine if_neg ?_
      intro hphase
      rw [spawn_started hphase] at hs
      have hresult : (Except.ok () : Except RunnerError Unit) = .error e := congrArg (·.2.2) hs
      cases hresult

/-- **Each call keeps the `Stage` or moves it on.** One case per constructor of `Call`. -/
theorem Stage.step (h : Stage trace r) (hmakes : Makes r m r') : Stage (trace ++ [m]) r' := by
  have hbegun := (hmakes.amends fun _ => h.capturing).begun
  obtain @⟨call, result, _, hcall⟩ := hmakes
  cases call with
  | spawn timer start now =>
      cases hcall
      rcases r.spawn_cases timer start now with ⟨pid, hphase, hstart, hs⟩ | ⟨e, hs⟩
      · -- the start that succeeds, which the run did not have before
        subst hstart
        rw [hs]
        exact h.launch hphase (if_pos hphase) rfl
      · have hnone := started?_of_error hs (r.spawn timer start now).2.2
        rw [hs] at hnone hbegun ⊢
        exact h.aside hnone rfl rfl rfl id
  | wait timer looks ending =>
      -- a wait that saw the end has let go of the child, even if the exit code was refused
      cases waited hcall with
      | unseen timedOut e hunseen => exact h.aside rfl hunseen rfl rfl hbegun
      | succeeded timedOut hseen _ hchild _ =>
          have hnone : (r.parted timedOut ending.captured).child = none := child_settled _ _
          exact h.part hchild rfl hseen hnone (capturing_settled _ _) hbegun
      | conflicted timedOut hseen _ hchild _ =>
          have hnone : (r.parted timedOut ending.captured).child = none := child_settled _ _
          exact h.part hchild rfl hseen hnone (capturing_settled _ _) hbegun
  | kill =>
      cases hcall
      rcases r.kill_cases with ⟨_, _, hk⟩ | ⟨_, hk⟩ <;> rw [hk] at hbegun ⊢ <;>
        exact h.aside rfl rfl rfl rfl hbegun
  | sendSignal signal delivery => cases hcall; exact h.aside rfl rfl rfl rfl hbegun
  | core operation => cases hcall; exact h.aside rfl rfl rfl rfl hbegun
  | notify notice => cases hcall; exact h.aside rfl rfl rfl rfl hbegun

/-! ## The output -/

/-- **`Written`** — how the output stands after the history `trace`. Until it is finished, it is the texts of
    the calls in their order (`Made.text?`). One call at most finishes it (`Made.files?`), and then it is
    `Scrub.scrub` of the texts with the sections of the redirected files. -/
structure Written (job : Job) (options : Options) (trace : List Made) (c : Core) : Prop where
  sameTester : c.job.tester = job.tester
  sameOptions : c.options = options
  unfinished : c.phase ≠ .completed →
    trace.filterMap Made.files? = [] ∧ c.output = String.join (trace.filterMap Made.text?)
  finished : c.phase = .completed → ∃ files, trace.filterMap Made.files? = [files] ∧
    c.output = Scrub.scrub (String.join (trace.filterMap Made.text?)
      ++ Output.sections files options.output.headerWidth.toNat (job.tester.redirectedFiles options))

variable {job : Job} {options : Options}

/-- **Each call adds its `text?`**, and nothing else, to what is `Written`. -/
theorem Written.step {c c' : Core} (h : Written job options trace c)
    (hamends : Core.Amends c m.text? m.files? c') : Written job options (trace ++ [m]) c' := by
  have htester : c'.job.tester = job.tester := hamends.tester.trans h.sameTester
  have hoptions : c'.options = options := hamends.options.trans h.sameOptions
  -- once completed, no step adds to what is written
  by_cases hdone : c.phase = .completed
  · obtain ⟨htext, hfiles, hdone', _, houtput⟩ := hamends.done hdone
    refine ⟨htester, hoptions, fun hopen => absurd hdone' hopen, fun _ => ?_⟩
    obtain ⟨files, hone, hfinished⟩ := h.finished hdone
    refine ⟨files, ?_, ?_⟩
    · rw [filterMap_snoc, hone, hfiles]; rfl
    · rw [join_filterMap_snoc, htext, Option.getD_none, String.append_empty, houtput, hfinished]
  · obtain ⟨hnone, htexts⟩ := h.unfinished hdone
    cases hfiles : m.files? with
    | none =>
        obtain ⟨hopen, houtput⟩ := hamends.grown hfiles hdone
        refine ⟨htester, hoptions, fun _ => ⟨?_, ?_⟩, fun hdone' => absurd hdone' hopen⟩
        · rw [filterMap_snoc, hnone, hfiles]; rfl
        · rw [join_filterMap_snoc, houtput, htexts]
    | some files =>
        obtain ⟨_, hdone', houtput⟩ := hamends.finished files hfiles
        refine ⟨htester, hoptions, fun hopen => absurd hdone' hopen, fun _ => ⟨files, ?_, ?_⟩⟩
        · rw [filterMap_snoc, hnone, hfiles]; rfl
        · rw [join_filterMap_snoc, houtput, htexts, Core.headerWidth, Core.redirectedFiles,
            h.sameTester, h.sameOptions]

/-- A run one of whose calls has `files?` is in phase `.completed`. -/
theorem Written.completed {c : Core} (h : Written job options trace c) (hmem : m ∈ trace)
    (hfiles : m.files?.isSome = true) : c.phase = .completed := by
  obtain ⟨files, hsome⟩ := Option.isSome_iff_exists.mp hfiles
  have hin : files ∈ trace.filterMap Made.files? := List.mem_filterMap.mpr ⟨m, hmem, hsome⟩
  by_contra hopen
  rw [(h.unfinished hopen).1] at hin
  cases hin

/-! ## All calls -/

theorem stage_of_run (h : Run Makes (ofJob job options) trace r) : Stage trace r := by
  induction h with
  | nil => exact .unstarted rfl rfl rfl rfl
  | snoc _ hmakes ih => exact ih.step hmakes

theorem written_of_run (h : Run Makes (ofJob job options) trace r) :
    Written job options trace r.core := by
  induction h with
  | nil => exact ⟨rfl, rfl, fun _ => ⟨rfl, rfl⟩, nofun⟩
  | snoc hrun hmakes ih => exact ih.step (hmakes.amends fun _ => (stage_of_run hrun).capturing)

/-- **A completed run stays as it is**: from `r.core.phase = .completed` on, no call changes the exit code or
    the output. -/
theorem run_of_completed (h : Stage trace r) (hdone : r.core.phase = .completed) {later : List Made}
    (hlater : Run Makes r later r') :
    Stage (trace ++ later) r' ∧ r'.core.phase = .completed ∧
    r'.core.exitCode = r.core.exitCode ∧ r'.core.output = r.core.output := by
  induction hlater with
  | nil =>
      rw [List.append_nil]
      exact ⟨h, hdone, rfl, rfl⟩
  | snoc _ hmakes ih =>
      obtain ⟨hstage, hphase, hcode, houtput⟩ := ih
      obtain ⟨_, _, hphase', hcode', houtput'⟩ := (hmakes.amends fun _ => hstage.capturing).done hphase
      rw [← List.append_assoc]
      exact ⟨hstage.step hmakes, hphase', hcode'.trans hcode, houtput'.trans houtput⟩

/-! ## Results -/

/-- **A process for each `spawn` that succeeds**, and for no other call. -/
theorem Makes.started_iff (h : Makes r m r') :
    (m.call.isSpawn && m.result.isOk) = m.started?.isSome := by
  obtain @⟨call, result, _, hcall⟩ := h
  cases call with
  | spawn timer start now =>
      cases hcall
      rcases r.spawn_cases timer start now with ⟨pid, hphase, rfl, hs⟩ | ⟨e, hs⟩
      · have hstarted : Made.started? ⟨r, .spawn timer (.started pid) now,
            (r.spawn timer (.started pid) now).2.2⟩ = some pid := if_pos hphase
        rw [hstarted, hs]; rfl
      · rw [started?_of_error hs, hs]; rfl
  | _ => rfl

/-- The wait with `m.seen? = some status` succeeds, unless an exit code has been recorded before. -/
theorem Makes.result_of_seen (h : Makes r m r') {status : ExitStatus} (hseen : m.seen? = some status) :
    (m.found.core.exitCode = none ∧ m.result = .ok ()) ∨
    ∃ existing, m.found.core.exitCode = some existing ∧
      m.result = .error (.exitCodeAlreadySet existing) := by
  obtain @⟨call, result, _, hcall⟩ := h
  cases call with
  | wait timer looks ending =>
      cases waited hcall with
      | unseen _ _ hunseen =>
          have hseen : r.endSeen? looks = some status := hseen
          rw [hunseen] at hseen
          cases hseen
      | succeeded _ _ _ _ hnone => exact Or.inl ⟨hnone, rfl⟩
      | conflicted _ _ _ _ hcode => exact Or.inr ⟨_, hcode, rfl⟩
  | _ => cases hseen

/-- A `wait` that succeeds has `seen?` the child's end, and finishes the output (`files?`). -/
theorem Makes.of_wait_ok (h : Makes r m r') (hwait : (m.call.isWait && m.result.isOk) = true) :
    m.seen?.isSome = true ∧ m.files?.isSome = true := by
  obtain @⟨call, result, _, hcall⟩ := h
  obtain ⟨hiswait, hok⟩ := Bool.and_eq_true_iff.mp hwait
  cases call with
  | wait timer looks ending =>
      cases waited hcall with
      | unseen _ _ _ => cases hok
      | succeeded _ hseen _ _ _ =>
          refine ⟨?_, rfl⟩
          show (r.endSeen? looks).isSome = true
          rw [hseen]; rfl
      | conflicted _ _ _ _ _ => cases hok
  | _ => cases hiswait

/-- **What is left to do with a completed run**: every call is refused with `.invalidState`, and `kill` finds
    no child. -/
theorem refused_of_completed (hdone : r.core.phase = .completed) (hchild : r.child = none) :
    (∀ timer start now,
      r.spawn timer start now = (r, timer, .error (.invalidState "spawn" .completed))) ∧
    (∀ timer looks ending,
      r.wait timer looks ending = some (r, timer, .error (.invalidState "wait" .completed))) ∧
    (∀ signal delivery,
      r.sendSignal signal delivery = .error (.invalidState "send_signal" .completed)) ∧
    r.kill = (r, none) := by
  have hcreated : r.core.phase ≠ .created := by rw [hdone]; decide
  have hspawned : r.core.phase ≠ .spawned := by rw [hdone]; decide
  refine ⟨?_, ?_, ?_, ?_⟩
  · intro timer start now
    unfold spawn
    rw [if_pos hcreated, hdone]
  · intro timer looks ending
    rw [wait, Core.ensureSpawned, if_neg hspawned, hdone]
  · intro signal delivery
    unfold sendSignal
    rw [Core.ensureSpawned, if_neg hspawned, hdone]
  · rw [kill, hchild]
    rfl

/-- **One start, one end.** Take any calls on a fresh runner (`Run Makes`), with whatever the outside does,
    and the runner `r` that they lead to. At most one `spawn` has succeeded, and a process has been started by
    that call only. The child and its output are held from the start on, until a wait sees the child's end
    (`Stage`). That wait succeeds, or reports with `.exitCodeAlreadySet` the exit code that was recorded
    before. Either way it is the one call that adds what the child has written: the output is the texts of the
    calls in their order, and once it is finished, the scrubbed texts with the sections of the redirected
    files.

    At most one `wait` has succeeded. From then on `r.child = none`, the run is completed with the exit code
    and the output that it has, a start, a wait and a signal are refused, and a kill changes nothing. -/
theorem one_start_one_end (h : Run Makes (ofJob job options) trace r) :
    trace.countP (fun m => m.call.isSpawn && m.result.isOk) ≤ 1 ∧
    (∀ m ∈ trace, (m.call.isSpawn && m.result.isOk) = m.started?.isSome) ∧
    Stage trace r ∧
    (∀ m ∈ trace, ∀ status, m.seen? = some status →
      (m.found.core.exitCode = none ∧ m.result = .ok ()) ∨
      ∃ existing, m.found.core.exitCode = some existing ∧
        m.result = .error (.exitCodeAlreadySet existing)) ∧
    (r.core.phase ≠ .completed → r.core.output = String.join (trace.filterMap Made.text?)) ∧
    (r.core.phase = .completed → ∃ files, trace.filterMap Made.files? = [files] ∧
      r.core.output = Scrub.scrub (String.join (trace.filterMap Made.text?)
        ++ Output.sections files options.output.headerWidth.toNat
          (job.tester.redirectedFiles options))) ∧
    trace.countP (fun m => m.call.isWait && m.result.isOk) ≤ 1 ∧
    (∀ m ∈ trace, (m.call.isWait && m.result.isOk) = true → ∀ later r', Run Makes r later r' →
      r'.child = none ∧ r'.core.phase = .completed ∧
      r'.core.exitCode = r.core.exitCode ∧ r'.core.output = r.core.output ∧
      (∀ timer start now,
        r'.spawn timer start now = (r', timer, .error (.invalidState "spawn" .completed))) ∧
      (∀ timer looks ending,
        r'.wait timer looks ending = some (r', timer, .error (.invalidState "wait" .completed))) ∧
      (∀ signal delivery,
        r'.sendSignal signal delivery = .error (.invalidState "send_signal" .completed)) ∧
      r'.kill = (r', none)) := by
  have hstage : Stage trace r := stage_of_run h
  have hwritten : Written job options trace r.core := written_of_run h
  -- whether a call succeeds is said of one step; the two invariants count over the whole run
  have hstarts : ∀ m ∈ trace, (m.call.isSpawn && m.result.isOk) = m.started?.isSome := by
    intro m hmem
    obtain ⟨_, _, hmakes⟩ := h.step_of_mem hmem
    exact hmakes.started_iff
  have hwaits : ∀ m ∈ trace, (m.call.isWait && m.result.isOk) = true →
      m.seen?.isSome = true ∧ m.files?.isSome = true := by
    intro m hmem hok
    obtain ⟨_, _, hmakes⟩ := h.step_of_mem hmem
    exact hmakes.of_wait_ok hok
  refine ⟨?_, hstarts, hstage, ?_, fun hopen => (hwritten.unfinished hopen).2, hwritten.finished, ?_, ?_⟩
  · rw [List.countP_congr (fun m hmem => by rw [hstarts m hmem]), ← List.length_filterMap_eq_countP]
    exact hstage.starts
  · intro m hmem status hseen
    obtain ⟨_, _, hmakes⟩ := h.step_of_mem hmem
    exact hmakes.result_of_seen hseen
  · refine Nat.le_trans (List.countP_mono_left fun m hmem hok => (hwaits m hmem hok).1) ?_
    rw [← List.length_filterMap_eq_countP]
    exact hstage.ends
  · intro m hmem hok later r' hlater
    obtain ⟨hseen, hfiles⟩ := hwaits m hmem hok
    have hdone : r.core.phase = .completed := hwritten.completed hmem hfiles
    obtain ⟨hstage', hphase, hcode, houtput⟩ := run_of_completed hstage hdone hlater
    have hchild : r'.child = none := hstage'.child_of_seen (List.mem_append_left _ hmem) hseen
    exact ⟨hchild, hphase, hcode, houtput, refused_of_completed hphase hchild⟩

/-- An exit code `3` is recorded while the child runs. The wait sees the child's end and fails, and the line
    `b` that the child has written is in the output all the same. -/
theorem one_start_one_end_of_conflict :
    ∃ (trace : List Made) (r : LocalRunner),
      Run Makes (ofJob { tester := Tester.plan { name := "t", command := .ofProgram [] } } {}) trace r ∧
      trace.countP (fun m => m.call.isWait && m.result.isOk) = 0 ∧
      trace.filterMap Made.seen? = [.exited 0] ∧ r.child = none ∧
      r.core.exitCode = some 3 ∧ r.core.output = "b\n" := by
  obtain ⟨trace, r, hrun, hfailed, hseen, hcode, hphase, htexts⟩ : ∃ trace r,
      Run Makes (ofJob { tester := Tester.plan { name := "t", command := .ofProgram [] } } {}) trace r ∧
      trace.countP (fun m => m.call.isWait && m.result.isOk) = 0 ∧
      trace.filterMap Made.seen? = [.exited 0] ∧ r.core.exitCode = some 3 ∧
      r.core.phase = .spawned ∧ String.join (trace.filterMap Made.text?) = "b\n" := by
    refine ⟨_, _, ((Run.nil.snoc (@Makes.made _ (.spawn {} (.started 7) 0) _ _ rfl)).snoc
      (@Makes.made _ (.core (.setExitCode 3)) _ _ rfl)).snoc
      (@Makes.made _ (.wait {} [{ sight := .ended (.exited 0) }]
        { captured := { data := [0x62] }, files := fun _ => none, now := 5 }) _ _ rfl), ?_⟩
    exact ⟨rfl, rfl, rfl, rfl, by decide +kernel⟩
  obtain ⟨_, _, hstage, _, hunfinished, _, _, _⟩ := one_start_one_end hrun
  have hopen : r.core.phase ≠ .completed := by rw [hphase]; decide
  refine ⟨trace, r, hrun, hfailed, hseen, ?_, hcode, (hunfinished hopen).trans htexts⟩
  cases hstage with
  | unstarted _ hnone _ _ => rw [hnone] at hseen; cases hseen
  | started _ _ hnone _ _ _ => rw [hnone] at hseen; cases hseen
  | gone _ _ _ _ hgone _ _ => exact hgone

end LocalRunner

end TestHarness
