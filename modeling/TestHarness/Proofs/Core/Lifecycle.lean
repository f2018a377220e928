import Mathlib.Logic.Relation
import TestHarness.Proofs.Core.Runs
import TestHarness.Proofs.Interleaving.Run

/-!
# The life of a run

Whatever calls are made, a run moves from `created` to `spawned` to `completed` and never back, it gets
its exit code once and keeps it, and its output grows until the run is completed and stays as it is from
then on (`lifecycle`).

All of this is read off the changes that calls make (`Change`): each keeps the phase or moves it on by
one, none replaces an exit code, and a completed run takes no change that counts. That something succeeds
at most once follows from the phase alone: a success leaves the one phase in which it is possible.
-/

namespace TestHarness

/-- **`Phase.Next`** — one move of a run. -/
inductive Phase.Next : Phase → Phase → Prop where
  | start : Next .created .spawned
  | finish : Next .spawned .completed

namespace Operation

/-- Whether a call is `markSpawned`, which marks the run as spawned. -/
def isStart : Operation → Bool
  | .markSpawned => true
  | _ => false

/-- Whether a call is `finalize` or `complete`, which finish the output. -/
def isFinish : Operation → Bool
  | .finalize _ | .complete _ _ => true
  | _ => false

end Operation

namespace Core

open Relation (ReflGen ReflTransGen)

/-! ## One change -/

/-- **Forward only**: a `Change` keeps the phase or moves it on by one (`Phase.Next`). -/
theorem Change.phase {c c' : Core} {text : Option String} (h : Change c text c') :
    ReflGen Phase.Next c.phase c'.phase := by
  cases h with
  | same => exact .refl
  | noted _ => exact .refl
  | spawned hphase => rw [hphase]; exact .single .start
  | appended _ _ _ => exact .refl
  | told _ => exact .refl
  | coded _ _ _ => exact .refl
  | closed _ _ hphase _ => rw [hphase]; exact .single .finish

/-- **An exit code stays**: only a run with `exitCode = none` gets one. -/
theorem Change.exitCode {c c' : Core} {text : Option String} (h : Change c text c') {code : Int}
    (hcode : c.exitCode = some code) : c'.exitCode = some code := by
  cases h with
  | same => exact hcode
  | noted _ => exact hcode
  | spawned _ => exact hcode
  | appended _ _ _ => exact hcode
  | told _ => exact hcode
  | coded _ _ hnone => rw [hnone] at hcode; cases hcode
  | closed new _ _ hnew =>
      show some new = some code
      rcases hnew with hnone | hsome
      · rw [hnone] at hcode; cases hcode
      · exact hsome.symm.trans hcode

/-- **`Coded`** — a run has no exit code in phase `.created`, and one in phase `.completed`. -/
structure Coded (c : Core) : Prop where
  created : c.phase = .created → c.exitCode = none
  completed : c.phase = .completed → c.exitCode ≠ none

theorem Coded.change {c c' : Core} {text : Option String} (hc : c.Coded) (h : Change c text c') :
    c'.Coded := by
  cases h with
  | same => exact hc
  | noted _ => exact ⟨hc.created, hc.completed⟩
  | spawned _ => exact ⟨nofun, nofun⟩
  | appended _ _ _ => exact ⟨hc.created, hc.completed⟩
  | told _ => exact ⟨hc.created, hc.completed⟩
  | coded code hphase _ =>
      refine ⟨fun hfirst => ?_, fun _ => Option.some_ne_none code⟩
      have hfirst : c.phase = .created := hfirst
      rw [hphase] at hfirst
      cases hfirst
  | closed code _ _ _ => exact ⟨nofun, fun _ => Option.some_ne_none code⟩

/-! ## Whole runs -/

theorem run_phase (c : Core) (calls : List Operation) :
    ReflTransGen Phase.Next c.phase (c.run calls).phase := by
  induction calls generalizing c with
  | nil => exact .refl
  | cons operation rest ih =>
      rw [run_cons]
      exact (c.perform_change operation).phase.to_reflTransGen.trans (ih _)

theorem run_exitCode {c : Core} {code : Int} (hcode : c.exitCode = some code)
    (calls : List Operation) : (c.run calls).exitCode = some code := by
  induction calls generalizing c with
  | nil => exact hcode
  | cons operation rest ih => exact ih ((c.perform_change operation).exitCode hcode)

theorem Coded.run {c : Core} (hc : c.Coded) (calls : List Operation) : (c.run calls).Coded := by
  induction calls generalizing c with
  | nil => exact hc
  | cons operation rest ih => exact ih (hc.change (c.perform_change operation))

theorem coded_fresh (job : Job) (options : Options) : (fresh job options).Coded :=
  ⟨fun _ => rfl, nofun⟩

/-! ## What succeeds once -/

/-- One call with its result, as a step of the shared state: `c.perform call.1 = (c', call.2)`. -/
def Performs (c : Core) (call : Operation × Except RunnerError Unit) (c' : Core) : Prop :=
  c.perform call.1 = (c', call.2)

/-- The `transcript` of a run is its trace. -/
theorem run_transcript (c : Core) (calls : List Operation) :
    Run Performs c (c.transcript calls) (c.run calls) := by
  induction calls generalizing c with
  | nil => exact .nil
  | cons operation rest ih =>
      have hfirst : Run Performs c ([] ++ [(operation, (c.perform operation).2)]) (c.perform operation).1 :=
        .snoc .nil rfl
      exact hfirst.append (ih _)

/-- A start succeeds in phase `created` only, and leaves it. -/
theorem Performs.start {c c' : Core} {call : Operation × Except RunnerError Unit}
    (h : Performs c call c') (hstart : (call.1.isStart && call.2.isOk) = true) :
    c.phase = .created ∧ c'.phase = .spawned := by
  obtain ⟨operation, result⟩ := call
  obtain ⟨hop, hok⟩ := Bool.and_eq_true_iff.mp hstart
  have h : c.perform operation = (c', result) := h
  cases operation with
  | markSpawned =>
      rcases c.markSpawned_cases with ⟨hphase, hm⟩ | ⟨_, hm⟩ <;> rw [perform, hm] at h <;> cases h
      · exact ⟨hphase, rfl⟩
      · cases hok
  | _ => cases hop

/-- A finish succeeds in phase `spawned` only, and completes the run. -/
theorem Performs.finish {c c' : Core} {call : Operation × Except RunnerError Unit}
    (h : Performs c call c') (hfinish : (call.1.isFinish && call.2.isOk) = true) :
    c.phase = .spawned ∧ c'.phase = .completed := by
  obtain ⟨operation, result⟩ := call
  obtain ⟨hop, hok⟩ := Bool.and_eq_true_iff.mp hfinish
  have h : c.perform operation = (c', result) := h
  have hresult : (c.perform operation).2 = .ok () := by
    rw [h]
    cases result with
    | error e => cases hok
    | ok u => rfl
  have hshape : ∃ files, operation = .finalize files ∨ ∃ code, operation = .complete files code := by
    cases operation with
    | finalize files => exact ⟨files, Or.inl rfl⟩
    | complete files code => exact ⟨files, Or.inr ⟨code, rfl⟩⟩
    | _ => cases hop
  obtain ⟨files, hlast⟩ := hshape
  obtain ⟨hphase, code, hclosed⟩ := perform_finishing hlast hresult
  rw [h] at hclosed
  exact ⟨hphase, congrArg Core.phase hclosed⟩

theorem Performs.change {c c' : Core} {call : Operation × Except RunnerError Unit}
    (h : Performs c call c') : ∃ text, Change c text c' := by
  have hchange := c.perform_change call.1
  rw [show c.perform call.1 = (c', call.2) from h] at hchange
  exact ⟨_, hchange⟩

/-- **One start**: at most one `markSpawned` of a `transcript` succeeds. -/
theorem countP_isStart_le_one (c : Core) (calls : List Operation) :
    (c.transcript calls).countP (fun call => call.1.isStart && call.2.isOk) ≤ 1 := by
  have hrun := c.run_transcript calls
  refine hrun.countP_le_one (fun c => c.phase ≠ .created) ?_ ?_ ?_
  · intro c call c' h hstart
    rw [(h.start hstart).2]
    decide
  · intro c call c' h hbegun hfirst
    obtain ⟨_, hchange⟩ := h.change
    exact hbegun (hchange.of_created hfirst)
  · intro c call c' h hbegun
    rw [Bool.eq_false_iff]
    intro hstart
    exact hbegun (h.start hstart).1

/-- **One end**: at most one `finalize` or `complete` of a `transcript` succeeds. -/
theorem countP_isFinish_le_one (c : Core) (calls : List Operation) :
    (c.transcript calls).countP (fun call => call.1.isFinish && call.2.isOk) ≤ 1 := by
  have hrun := c.run_transcript calls
  refine hrun.countP_le_one (fun c => c.phase = .completed) ?_ ?_ ?_
  · intro c call c' h hfinish
    exact (h.finish hfinish).2
  · intro c call c' h hdone
    obtain ⟨_, hchange⟩ := h.change
    exact (hchange.of_completed hdone).1
  · intro c call c' h hdone
    rw [Bool.eq_false_iff]
    intro hfinish
    have hphase := (h.finish hfinish).1
    rw [hdone] at hphase
    cases hphase

/-! ## All together -/

/-- **The life of a run.** Take any state `c` that calls lead to from a fresh one, and any state `c'` that
    further calls lead to from there.

    In phase `created` there is no exit code and in phase `completed` there is one; among the calls so far
    at most one start and at most one finish has succeeded; before completion the output is the accepted
    texts in the order of their calls. The next call keeps the phase or moves it on by one.

    From `c` to `c'` the phase only moves forward, an exit code stays as it is, the output only grows
    until completion, and a completed run keeps its phase, its exit code and its output. -/
theorem lifecycle (job : Job) (options : Options) (before after : List Operation) :
    let c := (fresh job options).run before
    let calls := (fresh job options).transcript before
    let c' := c.run after
    (c.phase = .created → c.exitCode = none) ∧
    (c.phase = .completed → ∃ code, c.exitCode = some code) ∧
    calls.countP (fun call => call.1.isStart && call.2.isOk) ≤ 1 ∧
    calls.countP (fun call => call.1.isFinish && call.2.isOk) ≤ 1 ∧
    (c.phase ≠ .completed → c.output = String.join (accepted calls)) ∧
    (∀ operation, ReflGen Phase.Next c.phase (c.perform operation).1.phase) ∧
    ReflTransGen Phase.Next c.phase c'.phase ∧
    (∀ code, c.exitCode = some code → c'.exitCode = some code) ∧
    (c'.phase ≠ .completed → ∃ more, c'.output = c.output ++ more) ∧
    (c.phase = .completed →
      c'.phase = .completed ∧ c'.exitCode = c.exitCode ∧ c'.output = c.output) := by
  intro c calls c'
  -- the invariant ties the exit code to the phase, and the rest is said of one call at a time
  have hc : c.Coded := (coded_fresh job options).run before
  refine ⟨hc.created, ?_, countP_isStart_le_one _ before, countP_isFinish_le_one _ before, ?_, ?_,
    c.run_phase after, ?_, ?_, ?_⟩
  · intro hdone
    exact Option.ne_none_iff_exists'.mp (hc.completed hdone)
  · intro hopen
    exact (run_output hopen).trans String.empty_append
  · intro operation
    exact (c.perform_change operation).phase
  · intro code hcode
    exact run_exitCode hcode after
  · intro hopen
    exact ⟨_, run_output hopen⟩
  · intro hdone
    obtain ⟨hphase, houtput⟩ := run_completed hdone after
    obtain ⟨code, hcode⟩ := Option.ne_none_iff_exists'.mp (hc.completed hdone)
    exact ⟨hphase, (run_exitCode hcode after).trans hcode.symm, houtput⟩

end Core

end TestHarness
