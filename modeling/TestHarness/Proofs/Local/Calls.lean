import TestHarness.Proofs.Core.Calls
import TestHarness.Runner.Local

/-!
# What one call of a local runner can do

The outcomes of the calls that touch the child: a start, one look, a row of looks, and the part of a wait
that follows the child's end. As for the shared state, each lemma lists all outcomes with the whole
runner after them, so that later proofs need not open the calls.

The looks of a wait change two things only: whether the deadline has passed (`timedOut`) and, at the very
end, whether the child is held (`watch_cases`).
-/

namespace TestHarness.LocalRunner

/-! ## Starting -/

/-- The runner after a successful `spawn`: it holds the child `pid` and its output, in phase `.spawned`. -/
def launched (r : LocalRunner) (pid : Nat) : LocalRunner :=
  { r.hold pid with core := { r.core with phase := .spawned } }

theorem spawn_started {r : LocalRunner} (hphase : r.core.phase = .created) (timer : Timer) (pid : Nat)
    (now : Duration) : r.spawn timer (.started pid) now = (r.launched pid, timer.start now, .ok ()) := by
  unfold spawn
  rw [if_neg (not_not_intro hphase)]
  -- the phase was just checked, so marking the run as spawned is not refused
  rcases (r.hold pid).core.markSpawned_cases with ⟨_, h⟩ | ⟨hne, _⟩
  · simp only [h]; rfl
  · exact absurd hphase hne

theorem spawn_noCapture {r : LocalRunner} (hphase : r.core.phase = .created) (timer : Timer)
    (reason : String) (now : Duration) :
    r.spawn timer (.noCapture reason) now = (r, timer, .error (.io reason)) := by
  unfold spawn
  rw [if_neg (not_not_intro hphase)]

theorem spawn_refused {r : LocalRunner} (hphase : r.core.phase = .created) (timer : Timer)
    (reason : String) (now : Duration) :
    r.spawn timer (.refused reason) now
      = (r, timer, .error (.spawnFailed (Utf8.decodeLossy r.command.program) reason)) := by
  unfold spawn
  rw [if_neg (not_not_intro hphase)]

/-- **A `spawn` succeeds or changes nothing.** -/
theorem spawn_cases (r : LocalRunner) (timer : Timer) (start : Start) (now : Duration) :
    (∃ pid, r.core.phase = .created ∧ start = .started pid ∧
      r.spawn timer start now = (r.launched pid, timer.start now, .ok ())) ∨
    (∃ e, r.spawn timer start now = (r, timer, .error e)) := by
  by_cases hphase : r.core.phase = .created
  · cases start with
    | started pid => exact Or.inl ⟨pid, hphase, rfl, spawn_started hphase timer pid now⟩
    | noCapture reason => exact Or.inr ⟨_, spawn_noCapture hphase timer reason now⟩
    | refused reason => exact Or.inr ⟨_, spawn_refused hphase timer reason now⟩
  · unfold spawn
    rw [if_pos hphase]
    exact Or.inr ⟨_, rfl⟩

/-! ## Signals from outside -/

theorem kill_cases (r : LocalRunner) :
    (∃ pid, r.child = some pid ∧ r.kill = ({ r with killed := true }, some .kill)) ∨
    (r.child = none ∧ r.kill = (r, none)) := by
  unfold kill
  cases hchild : r.child with
  | some pid => exact Or.inl ⟨pid, rfl, rfl⟩
  | none => exact Or.inr ⟨rfl, rfl⟩

theorem signalTarget_cases (r : LocalRunner) (signal : Signal) :
    (∃ pid, r.child = some pid ∧ r.signalTarget signal = .ok pid) ∨
    (r.child = none ∧ r.signalTarget signal = .error (.signalFailed signal alreadyExited)) := by
  unfold signalTarget
  cases hchild : r.child with
  | some pid => exact Or.inl ⟨pid, rfl, rfl⟩
  | none => exact Or.inr ⟨rfl, rfl⟩

/-! ## Looking -/

/-- The runner with `timedOut` set to whether the deadline has passed. -/
def withTimedOut (r : LocalRunner) (timedOut : Bool) : LocalRunner := { r with timedOut }

/-- The runner that has let its child go: `child := none`. -/
def released (r : LocalRunner) : LocalRunner := { r with child := none }

/-- **`Wait.Honest`** — in a wait that has sent a signal (`w.lastSent ≠ none`), the deadline has passed. -/
def Wait.Honest (w : Wait) : Prop := w.lastSent ≠ none → w.runner.timedOut = true

/-- **A `look` at a child that runs**: before the deadline nothing happens; the first look past it sends
    `.term`; a later one sends `.kill` if a grace period has passed since the last signal. -/
theorem look_running_cases {w : Wait} {l : Look} {pid : Nat} (hchild : w.runner.child = some pid)
    (hsight : l.sight = .running) :
    (l.expired = false ∧ look w l = (w, none, .running)) ∨
    (l.expired = true ∧ w.lastSent = none ∧
      look w l = (⟨w.runner.withTimedOut true, some l.sent⟩, some .term, .running)) ∨
    (∃ last, l.expired = true ∧ w.lastSent = some last ∧
      w.runner.core.options.runner.killGrace ≤ l.checked - last ∧
      look w l = (⟨w.runner, some l.sent⟩, some .kill, .running)) ∨
    (∃ last, l.expired = true ∧ w.lastSent = some last ∧
      ¬ w.runner.core.options.runner.killGrace ≤ l.checked - last ∧ look w l = (w, none, .running)) := by
  unfold look
  rw [hchild, hsight]
  cases hexpired : l.expired with
  | false => exact Or.inl ⟨rfl, rfl⟩
  | true =>
      refine Or.inr ?_
      cases hlast : w.lastSent with
      | none =>
          refine Or.inl ⟨rfl, rfl, ?_⟩
          simp only [enforce, hlast]
          rfl
      | some last =>
          refine Or.inr ?_
          by_cases hgrace : w.runner.core.options.runner.killGrace ≤ l.checked - last
          · refine Or.inl ⟨last, rfl, rfl, hgrace, ?_⟩
            simp only [enforce, hlast, if_pos hgrace, if_true]
          · refine Or.inr ⟨last, rfl, rfl, hgrace, ?_⟩
            simp only [enforce, hlast, if_neg hgrace, if_true]

/-- In an `Honest` wait, the deadline has passed after a look if it had before or the timer is expired. -/
theorem look_running {w : Wait} {l : Look} {pid : Nat} (hw : w.Honest)
    (hchild : w.runner.child = some pid) (hsight : l.sight = .running) :
    ∃ w' signal, look w l = (w', signal, .running) ∧ w'.Honest ∧
      w'.runner = w.runner.withTimedOut (w.runner.timedOut || l.expired) := by
  -- an honest wait that has sent a signal knows that the deadline has passed
  have hsame : ∀ {last}, w.lastSent = some last → w.runner.timedOut = true ∧
      w.runner = w.runner.withTimedOut (w.runner.timedOut || true) := by
    intro last hlast
    have hout : w.runner.timedOut = true := hw (by rw [hlast]; exact Option.some_ne_none last)
    exact ⟨hout, by rw [Bool.or_true, ← hout]; rfl⟩
  obtain ⟨hexpired, h⟩ | ⟨hexpired, _, h⟩ | ⟨last, hexpired, hlast, _, h⟩ | ⟨last, hexpired, hlast, _, h⟩ :=
    look_running_cases hchild hsight
  · exact ⟨w, none, h, hw, by rw [hexpired, Bool.or_false]; rfl⟩
  · exact ⟨_, _, h, fun _ => rfl, by rw [hexpired, Bool.or_true]⟩
  · exact ⟨_, _, h, fun _ => (hsame hlast).1, hexpired ▸ (hsame hlast).2⟩
  · exact ⟨w, none, h, hw, hexpired ▸ (hsame hlast).2⟩

theorem look_ended {w : Wait} {l : Look} {pid : Nat} {status : ExitStatus}
    (hchild : w.runner.child = some pid) (hsight : l.sight = .ended status) :
    look w l = ({ w with runner := w.runner.released }, none, .ended status) := by
  unfold look
  rw [hchild, hsight]
  rfl

theorem look_lost {w : Wait} {l : Look} {pid : Nat} {reason : String}
    (hchild : w.runner.child = some pid) (hsight : l.sight = .lost reason) :
    look w l = (w, none, .failed (.waitFailed reason)) := by
  unfold look
  rw [hchild, hsight]

theorem look_noChild {w : Wait} (l : Look) (hchild : w.runner.child = none) :
    look w l = (w, none, .failed (.waitFailed noChild)) := by
  unfold look
  rw [hchild]

/-- **Any `look`** keeps the child until it sees its end, and signals only a child that is held. -/
theorem look_cases (w : Wait) (l : Look) :
    (∃ timedOut, (look w l).1.runner = w.runner.withTimedOut timedOut ∧
      (∀ status, (look w l).2.2 ≠ .ended status) ∧
      ((look w l).2.1 ≠ none → w.runner.child ≠ none)) ∨
    (∃ pid status, w.runner.child = some pid ∧
      look w l = ({ w with runner := w.runner.released }, none, .ended status)) := by
  cases hchild : w.runner.child with
  | none =>
      rw [look_noChild l hchild]
      exact Or.inl ⟨w.runner.timedOut, rfl, nofun, fun h => absurd rfl h⟩
  | some pid =>
      cases hsight : l.sight with
      | ended status => exact Or.inr ⟨pid, status, rfl, look_ended hchild hsight⟩
      | lost reason =>
          rw [look_lost hchild hsight]
          exact Or.inl ⟨w.runner.timedOut, rfl, nofun, fun h => absurd rfl h⟩
      | running =>
          have hheld : (some pid : Option Nat) ≠ none := Option.some_ne_none pid
          obtain ⟨_, h⟩ | ⟨_, _, h⟩ | ⟨_, _, _, _, h⟩ | ⟨_, _, _, _, h⟩ := look_running_cases hchild hsight
          · rw [h]
            exact Or.inl ⟨w.runner.timedOut, rfl, nofun, fun _ => hheld⟩
          · rw [h]
            exact Or.inl ⟨true, rfl, nofun, fun _ => hheld⟩
          · rw [h]
            exact Or.inl ⟨w.runner.timedOut, rfl, nofun, fun _ => hheld⟩
          · rw [h]
            exact Or.inl ⟨w.runner.timedOut, rfl, nofun, fun _ => hheld⟩

/-! ## Looking again and again -/

theorem watch_cons_running {w w' : Wait} {l : Look} {signal : Option Signal} (looks : List Look)
    (h : look w l = (w', signal, .running)) :
    watch w (l :: looks)
      = ((watch w' looks).1, signal :: (watch w' looks).2.1, (watch w' looks).2.2) := by
  rw [watch, h]

theorem watch_cons_ended {w w' : Wait} {l : Look} {signal : Option Signal} {status : ExitStatus}
    (looks : List Look) (h : look w l = (w', signal, .ended status)) :
    watch w (l :: looks) = (w', [signal], .ended status) := by
  rw [watch, h]

theorem watch_cons_failed {w w' : Wait} {l : Look} {signal : Option Signal} {e : RunnerError}
    (looks : List Look) (h : look w l = (w', signal, .failed e)) :
    watch w (l :: looks) = (w', [signal], .failed e) := by
  rw [watch, h]

/-- `watch` over looks after looks that leave the wait `.running`. -/
theorem watch_append {w : Wait} {before : List Look} (h : (watch w before).2.2 = .running)
    (after : List Look) :
    watch w (before ++ after) = ((watch (watch w before).1 after).1,
      (watch w before).2.1 ++ (watch (watch w before).1 after).2.1,
      (watch (watch w before).1 after).2.2) := by
  induction before generalizing w with
  | nil => rfl
  | cons l before ih =>
      rw [List.cons_append]
      rcases hlook : look w l with ⟨w', signal, verdict⟩
      cases verdict with
      | running =>
          rw [watch_cons_running _ hlook] at h ⊢
          rw [watch_cons_running _ hlook, ih h]
          rfl
      | ended status => rw [watch_cons_ended _ hlook] at h; cases h
      | failed e => rw [watch_cons_failed _ hlook] at h; cases h

/-- **Any row of looks.** Until one of them sees the child's end, `watch` keeps the child. -/
theorem watch_cases {w : Wait} (hw : w.Honest) (looks : List Look) :
    ∃ timedOut,
      ((watch w looks).2.2 = .running ∧ (watch w looks).1.runner = w.runner.withTimedOut timedOut) ∨
      (∃ e, (watch w looks).2.2 = .failed e ∧
        (watch w looks).1.runner = w.runner.withTimedOut timedOut) ∨
      (∃ status, (watch w looks).2.2 = .ended status ∧
        (watch w looks).1.runner = (w.runner.withTimedOut timedOut).released) := by
  -- by induction on the looks, for every wait: each look hands a wait of its own to the rest
  induction looks generalizing w with
  | nil => exact ⟨w.runner.timedOut, Or.inl ⟨rfl, rfl⟩⟩
  | cons l looks ih =>
      cases hchild : w.runner.child with
      | none =>
          rw [watch_cons_failed looks (look_noChild l hchild)]
          exact ⟨w.runner.timedOut, Or.inr (Or.inl ⟨_, rfl, rfl⟩)⟩
      | some pid =>
          cases hsight : l.sight with
          | running =>
              obtain ⟨w', signal, hlook, hw', hrunner⟩ := look_running hw hchild hsight
              obtain ⟨timedOut, hrest⟩ := ih hw'
              rw [watch_cons_running looks hlook]
              rw [hrunner] at hrest
              exact ⟨timedOut, hrest⟩
          | ended status =>
              rw [watch_cons_ended looks (look_ended hchild hsight)]
              exact ⟨w.runner.timedOut, Or.inr (Or.inr ⟨status, rfl, rfl⟩)⟩
          | lost reason =>
              rw [watch_cons_failed looks (look_lost hchild hsight)]
              exact ⟨w.runner.timedOut, Or.inr (Or.inl ⟨_, rfl, rfl⟩)⟩

/-- Only a child that is held is seen to end: `.ended status` comes of `w.runner.child = some pid`. -/
theorem child_of_watch_ended {w : Wait} {looks : List Look} {status : ExitStatus}
    (h : (watch w looks).2.2 = .ended status) : ∃ pid, w.runner.child = some pid := by
  cases hchild : w.runner.child with
  | some pid => exact ⟨pid, rfl⟩
  | none =>
      cases looks with
      | nil => cases h
      | cons l looks =>
          rw [watch_cons_failed looks (look_noChild l hchild)] at h
          cases h

/-- A row of looks that all find the child running leaves `watch` at `.running`. -/
theorem watch_running {w : Wait} (hw : w.Honest) {pid : Nat} (hchild : w.runner.child = some pid)
    {looks : List Look} (hlooks : ∀ l ∈ looks, l.sight = .running) :
    (watch w looks).2.2 = .running ∧
    (watch w looks).1.runner = w.runner.withTimedOut (w.runner.timedOut || looks.any (·.expired)) := by
  induction looks generalizing w with
  | nil =>
      rw [List.any_nil, Bool.or_false]
      exact ⟨rfl, rfl⟩
  | cons l looks ih =>
      obtain ⟨w', signal, hlook, hw', hrunner⟩ :=
        look_running hw hchild (hlooks l List.mem_cons_self)
      have hchild' : w'.runner.child = some pid := by rw [hrunner]; exact hchild
      obtain ⟨hverdict, hend⟩ := ih hw' hchild' fun l hl => hlooks l (List.mem_cons_of_mem _ hl)
      rw [watch_cons_running _ hlook]
      refine ⟨hverdict, ?_⟩
      rw [hend, hrunner, List.any_cons, ← Bool.or_assoc]
      rfl

/-- **A row of looks that sees the end.** The deadline has passed if it had before or some look found the
    timer `expired` while the child ran. -/
theorem watch_ended {w : Wait} (hw : w.Honest) {pid : Nat} (hchild : w.runner.child = some pid)
    {polls : List Look} {last : Look} {status : ExitStatus}
    (hpolls : ∀ poll ∈ polls, poll.sight = .running) (hlast : last.sight = .ended status) :
    (watch w (polls ++ [last])).2.2 = .ended status ∧
    (watch w (polls ++ [last])).1.runner
      = (w.runner.withTimedOut (w.runner.timedOut || polls.any (·.expired))).released := by
  obtain ⟨hverdict, hrunner⟩ := watch_running hw hchild hpolls
  have hchild' : (watch w polls).1.runner.child = some pid := by rw [hrunner]; exact hchild
  rw [watch_append hverdict, watch_cons_ended [] (look_ended hchild' hlast), ← hrunner]
  exact ⟨rfl, rfl⟩

/-! ## After the child's end -/

/-- The runner that has read what the child wrote, if it was still to be read (`capturing`). -/
def gathered (r : LocalRunner) (captured : Stream) : LocalRunner :=
  if r.capturing = true then
    { r with core := (r.core.readStream captured).1.withText captured.text, capturing := false }
  else r

/-- `reportTimeout` touches nothing but the job's status. -/
theorem reportTimeout_eq (r : LocalRunner) :
    r.reportTimeout
      = { r with
          core := { r.core with
            job := if r.timedOut then r.core.job.setStatus timeoutStatus else r.core.job } } := by
  unfold reportTimeout
  by_cases h : r.timedOut = true
  · rw [if_pos h, if_pos h]
  · rw [if_neg h, if_neg h]

@[simp] theorem phase_reportTimeout (r : LocalRunner) :
    r.reportTimeout.core.phase = r.core.phase := by rw [reportTimeout_eq]

@[simp] theorem child_reportTimeout (r : LocalRunner) : r.reportTimeout.child = r.child := by
  rw [reportTimeout_eq]

@[simp] theorem killed_reportTimeout (r : LocalRunner) : r.reportTimeout.killed = r.killed := by
  rw [reportTimeout_eq]

@[simp] theorem capturing_reportTimeout (r : LocalRunner) :
    r.reportTimeout.capturing = r.capturing := by rw [reportTimeout_eq]

@[simp] theorem timedOut_reportTimeout (r : LocalRunner) : r.reportTimeout.timedOut = r.timedOut := by
  rw [reportTimeout_eq]

@[simp] theorem exitCode_reportTimeout (r : LocalRunner) :
    r.reportTimeout.core.exitCode = r.core.exitCode := by rw [reportTimeout_eq]

@[simp] theorem phase_gathered (r : LocalRunner) (captured : Stream) :
    (r.gathered captured).core.phase = r.core.phase := by
  unfold gathered; split <;> rfl

@[simp] theorem exitCode_gathered (r : LocalRunner) (captured : Stream) :
    (r.gathered captured).core.exitCode = r.core.exitCode := by
  unfold gathered; split <;> rfl

theorem collect_eq {r : LocalRunner} (hopen : r.core.phase ≠ .completed) (captured : Stream) :
    r.collect captured = (r.gathered captured, .ok ()) := by
  unfold collect gathered
  by_cases hcap : r.capturing = true
  · rw [if_pos hcap, if_pos hcap]
    have hread : r.core.readStream captured = ((r.core.readStream captured).1, captured.text) := by
      unfold Core.readStream; rw [Stream.readText_eq]
    -- reading changes the job only, so the text is not refused
    have hopen' : (r.core.readStream captured).1.phase ≠ .completed := hopen
    rcases (r.core.readStream captured).1.append_cases captured.text with ⟨_, h⟩ | ⟨hdone, _⟩
    · rw [hread]; simp only [h]
    · exact absurd hdone hopen'
  · rw [if_neg hcap, if_neg hcap]

/-- The runner whose timeout is reported and whose output is read, before the run is completed:
    `reportTimeout`, then `gathered`. -/
def settled (r : LocalRunner) (captured : Stream) : LocalRunner := r.reportTimeout.gathered captured

@[simp] theorem phase_settled (r : LocalRunner) (captured : Stream) :
    (r.settled captured).core.phase = r.core.phase := by
  rw [settled, phase_gathered, phase_reportTimeout]

@[simp] theorem exitCode_settled (r : LocalRunner) (captured : Stream) :
    (r.settled captured).core.exitCode = r.core.exitCode := by
  rw [settled, exitCode_gathered, exitCode_reportTimeout]

@[simp] theorem child_settled (r : LocalRunner) (captured : Stream) :
    (r.settled captured).child = r.child := by
  unfold settled gathered
  split
  · exact r.child_reportTimeout
  · exact r.child_reportTimeout

@[simp] theorem timedOut_settled (r : LocalRunner) (captured : Stream) :
    (r.settled captured).timedOut = r.timedOut := by
  unfold settled gathered
  split
  · exact r.timedOut_reportTimeout
  · exact r.timedOut_reportTimeout

/-- Whatever was held, nothing is left to read after `settled`. -/
@[simp] theorem capturing_settled (r : LocalRunner) (captured : Stream) :
    (r.settled captured).capturing = false := by
  unfold settled gathered
  split
  · rfl
  · exact Bool.eq_false_iff.mpr ‹_›

theorem conclude_eq {r : LocalRunner} (hphase : r.core.phase = .spawned) (timer : Timer)
    (status : ExitStatus) (ending : Ending) :
    r.conclude timer status ending
      = ({ r.settled ending.captured with
            core := ((r.settled ending.captured).core.complete ending.files status.code).1 },
          timer.stop ending.now,
          ((r.settled ending.captured).core.complete ending.files status.code).2) := by
  have hopen : r.reportTimeout.core.phase ≠ .completed := by
    rw [phase_reportTimeout, hphase]; decide
  unfold conclude
  rw [collect_eq hopen]
  rfl

/-- **After the child's end** `conclude` succeeds, unless somebody has recorded an exit code before, which it
    then reports with `.exitCodeAlreadySet`. -/
theorem conclude_cases {r : LocalRunner} (hphase : r.core.phase = .spawned) (timer : Timer)
    (status : ExitStatus) (ending : Ending) :
    (r.core.exitCode = none ∧
      r.conclude timer status ending
        = ({ r.settled ending.captured with
              core := ((r.settled ending.captured).core.withCode status.code).closed ending.files },
            timer.stop ending.now, .ok ())) ∨
    (∃ existing, r.core.exitCode = some existing ∧
      r.conclude timer status ending
        = (r.settled ending.captured, timer.stop ending.now,
            .error (.exitCodeAlreadySet existing))) := by
  have hcode : (r.settled ending.captured).core.exitCode = r.core.exitCode := exitCode_settled _ _
  rw [conclude_eq hphase]
  rcases (r.settled ending.captured).core.complete_cases ending.files status.code with
    ⟨_, hnone, h⟩ | ⟨existing, _, hsome, h⟩ | ⟨hne, _⟩
  · exact Or.inl ⟨hcode ▸ hnone, by rw [h]⟩
  · exact Or.inr ⟨existing, hcode ▸ hsome, by rw [h]⟩
  · refine absurd ?_ hne
    rw [phase_settled, hphase]

/-! ## A whole wait -/

/-- **A `wait`** is refused, does not end (`none`), fails at a look, or goes on to `conclude` after the
    child's end. -/
theorem wait_cases (r : LocalRunner) (timer : Timer) (looks : List Look) (ending : Ending) :
    (r.core.phase ≠ .spawned ∧
      r.wait timer looks ending = some (r, timer, .error (.invalidState "wait" r.core.phase))) ∨
    (r.core.phase = .spawned ∧ (watch { runner := r } looks).2.2 = .running ∧
      r.wait timer looks ending = none) ∨
    (∃ timedOut e, r.core.phase = .spawned ∧ (watch { runner := r } looks).2.2 = .failed e ∧
      r.wait timer looks ending = some (r.withTimedOut timedOut, timer, .error e)) ∨
    (∃ timedOut status, r.core.phase = .spawned ∧ (watch { runner := r } looks).2.2 = .ended status ∧
      r.wait timer looks ending
        = some ((r.withTimedOut timedOut).released.conclude timer status ending)) := by
  unfold wait
  rcases r.core.ensureSpawned_cases "wait" with ⟨hphase, h⟩ | ⟨hphase, h⟩
  · rw [h]
    refine Or.inr ?_
    have hw : Wait.Honest { runner := r } := fun h => absurd rfl h
    obtain ⟨timedOut, ⟨hv, _⟩ | ⟨e, hv, hr⟩ | ⟨status, hv, hr⟩⟩ := watch_cases hw looks
    all_goals
      generalize watch { runner := r } looks = result at *
      obtain ⟨w, signals, verdict⟩ := result
      cases hv
    · exact Or.inl ⟨hphase, rfl, rfl⟩
    · exact Or.inr (Or.inl ⟨timedOut, e, hphase, rfl, by rw [← hr]⟩)
    · exact Or.inr (Or.inr ⟨timedOut, status, hphase, rfl, by rw [← hr]⟩)
  · rw [h]
    exact Or.inl ⟨hphase, rfl⟩

/-- **A `wait` that sees the end** is `conclude`, with the deadline passed if it had before or some look found
    the timer `expired` while the child ran. -/
theorem wait_of_ended {r : LocalRunner} {pid : Nat} (hphase : r.core.phase = .spawned)
    (hchild : r.child = some pid) {polls : List Look} {last : Look} {status : ExitStatus}
    (hpolls : ∀ poll ∈ polls, poll.sight = .running) (hlast : last.sight = .ended status)
    (timer : Timer) (ending : Ending) :
    r.wait timer (polls ++ [last]) ending
      = some ((r.withTimedOut (r.timedOut || polls.any (·.expired))).released.conclude timer status
          ending) := by
  have hw : Wait.Honest { runner := r } := fun h => absurd rfl h
  obtain ⟨hverdict, hrunner⟩ := watch_ended hw hchild hpolls hlast
  rw [wait, Core.ensureSpawned, if_pos hphase]
  generalize watch { runner := r } (polls ++ [last]) = result at *
  obtain ⟨w, signals, verdict⟩ := result
  cases hverdict
  exact congrArg (fun r => some (conclude r timer status ending)) hrunner

end TestHarness.LocalRunner
