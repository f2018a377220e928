import TestHarness.Proofs.Core.Runs
import TestHarness.Proofs.Local.Calls

/-!
# The life of a local runner

One thread makes the calls of a local runner in any order: starts, waits, kills and signals, mixed with
direct calls of the shared state and with the harness changing the job. What the outside does (what came
of a start, what the looks showed, what the child wrote) is part of each call, so a statement about all
lists of calls is one about every behaviour of the child.

The runner's own fields and the shared state can drift apart under direct calls. What keeps them together
is `Held`: after a successful start the child and its output are held until an exit code is recorded.
-/

namespace TestHarness.LocalRunner

/-- A call of a local runner, with what the outside does during it: what came of a `start`, what the looks
    showed, what came of a `delivery`. -/
inductive Call where
  | spawn (timer : Timer) (start : Start) (now : Duration)
  | wait (timer : Timer) (looks : List Look) (ending : Ending)
  | kill
  | sendSignal (signal : Signal) (delivery : Except String Unit)
  /-- A direct call of the shared state, `Core.perform`. -/
  | core (operation : Operation)
  /-- The harness changes the job, by `Job.notify`. -/
  | notify (notice : Notice)

/-- The runner after one call, with the call's result; `none` for a wait that does not end. -/
def perform (r : LocalRunner) : Call → Option (LocalRunner × Except RunnerError Unit)
  | .spawn timer start now => some ((r.spawn timer start now).1, (r.spawn timer start now).2.2)
  | .wait timer looks ending => (r.wait timer looks ending).map fun end_ => (end_.1, end_.2.2)
  | .kill => some (r.kill.1, .ok ())
  | .sendSignal signal delivery => some (r, r.sendSignal signal delivery)
  | .core operation =>
    some ({ r with core := (r.core.perform operation).1 }, (r.core.perform operation).2)
  | .notify notice => some ({ r with core := { r.core with job := r.core.job.notify notice } }, .ok ())

/-- The runner after calls made one after the other by `perform`, if all of them end. -/
def run (r : LocalRunner) : List Call → Option LocalRunner
  | [] => some r
  | call :: rest => (r.perform call).bind fun after => after.1.run rest

/-! ## What is held -/

/-- **`Held`** — the run has begun, and as long as it has no `exitCode` the child and its output are held. -/
structure Held (r : LocalRunner) : Prop where
  begun : r.core.phase ≠ .created
  child : r.core.exitCode = none → ∃ pid, r.child = some pid
  capture : r.core.exitCode = none → r.capturing = true

theorem held_launched (r : LocalRunner) (pid : Nat) : (r.launched pid).Held := by
  refine ⟨?_, ?_, ?_⟩
  · show ¬ Phase.spawned = Phase.created
    decide
  · intro _
    exact ⟨pid, rfl⟩
  · intro _
    rfl

/-- With an `exitCode` nothing needs to be held any more. -/
theorem held_of_exitCode {r : LocalRunner} {code : Int} (hbegun : r.core.phase ≠ .created)
    (hcode : r.core.exitCode = some code) : r.Held := by
  have hsome : r.core.exitCode ≠ none := by rw [hcode]; exact Option.some_ne_none code
  refine ⟨hbegun, ?_, ?_⟩
  · intro hnone
    exact absurd hnone hsome
  · intro hnone
    exact absurd hnone hsome

/-- A `wait` lets the child and its output go only when it sees the child's end, and then there is an
    `exitCode`: its own or an earlier one. -/
theorem Held.wait {r : LocalRunner} (h : r.Held) {timer : Timer} {looks : List Look} {ending : Ending}
    {end_ : LocalRunner × Timer × Except RunnerError Unit}
    (hwait : r.wait timer looks ending = some end_) : end_.1.Held := by
  rcases r.wait_cases timer looks ending with
    ⟨_, hw⟩ | ⟨_, _, hw⟩ | ⟨timedOut, e, _, _, hw⟩ | ⟨timedOut, status, hphase, _, hw⟩
  · rw [hw] at hwait; cases hwait; exact h
  · rw [hw] at hwait; cases hwait
  · rw [hw] at hwait; cases hwait; exact ⟨h.begun, h.child, h.capture⟩
  · rw [hw] at hwait
    cases hwait
    have hphase' : (r.withTimedOut timedOut).released.core.phase = .spawned := hphase
    rcases conclude_cases hphase' timer status ending with ⟨_, hc⟩ | ⟨existing, hcode, hc⟩ <;> rw [hc]
    · have hbegun : Phase.completed ≠ Phase.created := by decide
      exact held_of_exitCode hbegun rfl
    · have hsome : ((r.withTimedOut timedOut).released.settled ending.captured).core.exitCode
          = some existing := by rw [exitCode_settled, hcode]
      have hbegun : ((r.withTimedOut timedOut).released.settled ending.captured).core.phase
          ≠ .created := by
        rw [phase_settled, hphase']
        decide
      exact held_of_exitCode hbegun hsome

/-- **Every call keeps `Held`.** -/
theorem Held.perform {r r' : LocalRunner} {call : Call} {result : Except RunnerError Unit}
    (h : r.Held) (hcall : r.perform call = some (r', result)) : r'.Held := by
  cases call with
  | spawn timer start now =>
      cases hcall
      rcases r.spawn_cases timer start now with ⟨_, hphase, _, _⟩ | ⟨_, hs⟩
      · exact absurd hphase h.begun
      · rw [hs]; exact h
  | wait timer looks ending =>
      obtain ⟨end_, hwait, heq⟩ := Option.map_eq_some_iff.mp hcall
      cases heq
      exact h.wait hwait
  | kill =>
      cases hcall
      rcases r.kill_cases with ⟨_, _, hk⟩ | ⟨_, hk⟩ <;> rw [hk]
      · exact ⟨h.begun, h.child, h.capture⟩
      · exact h
  | sendSignal signal delivery => cases hcall; exact h
  | core operation =>
      cases hcall
      have hchange := r.core.perform_change operation
      -- a call of the shared state leaves the child alone and takes no exit code back
      refine ⟨?_, ?_, ?_⟩
      · intro hfirst
        exact h.begun (hchange.of_created hfirst)
      · intro hnone
        exact h.child (hchange.of_noCode hnone)
      · intro hnone
        exact h.capture (hchange.of_noCode hnone)
  | notify notice => cases hcall; exact ⟨h.begun, h.child, h.capture⟩

theorem Held.run {r r' : LocalRunner} {calls : List Call} (h : r.Held) (hrun : r.run calls = some r') :
    r'.Held := by
  induction calls generalizing r with
  | nil => cases hrun; exact h
  | cons call rest ih =>
      obtain ⟨after, hcall, hrest⟩ := Option.bind_eq_some_iff.mp hrun
      exact ih (h.perform hcall) hrest

/-- **Once started, always `Held`**, whatever calls follow a successful `spawn`. -/
theorem held_of_spawn {r₀ r : LocalRunner} {timer : Timer} {start : Start} {now : Duration}
    {calls : List Call} (hspawn : (r₀.spawn timer start now).2.2 = .ok ())
    (hcalls : (r₀.spawn timer start now).1.run calls = some r) : r.Held := by
  rcases r₀.spawn_cases timer start now with ⟨pid, _, _, h⟩ | ⟨e, h⟩
  · rw [h] at hcalls
    exact (held_launched r₀ pid).run hcalls
  · rw [h] at hspawn
    cases hspawn

end TestHarness.LocalRunner
