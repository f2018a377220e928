import TestHarness.Proofs.Core.Runs
import TestHarness.Proofs.Interleaving.Run
import TestHarness.Proofs.Local.Calls

/-!
# The worker of a local runner

The thread that starts a local runner's child and waits for it, one hold of a lock at a time. Between two
of its steps other threads may act. Its steps are those of `LocalRunner.spawn` and `LocalRunner.wait`,
which `spawn_steps` and `wait_steps` say: a worker that is not interrupted does in its steps what the
whole call does.
-/

namespace TestHarness

/-- **`Point`** — where the worker stands. -/
inductive Point where
  /-- Between two calls, with the result of the `last` one. -/
  | idle (last : Option (Except RunnerError Unit))
  /-- A `spawn` whose phase is checked. -/
  | starting
  /-- A `spawn` that holds its child. -/
  | holding
  /-- A `spawn` whose run is marked as spawned. -/
  | marked
  /-- A `wait` between two looks, with the clock at the last signal. -/
  | polling (lastSent : Option Duration)
  /-- A `wait` that has seen the child's end. -/
  | ended (status : ExitStatus)
  | stopped (status : ExitStatus)
  | reported (status : ExitStatus)
  | read (status : ExitStatus) (text : String)
  | collected (status : ExitStatus)
  | confirmed (status : ExitStatus)
  | coded

namespace Point

/-- The point after a step that may fail, and end the call then: `next`, or `.idle` with the error. -/
def following (next : Point) : Except RunnerError Unit → Point
  | .ok () => next
  | .error e => .idle (some (.error e))

/-- The point after a `look`, by its verdict. -/
def afterLook (lastSent : Option Duration) : LocalRunner.Verdict → Point
  | .running => .polling lastSent
  | .ended status => .ended status
  | .failed e => .idle (some (.error e))

/-- A `spawn` that is under way and has not marked the run as spawned: `starting` or `holding`. -/
def IsStart : Point → Prop
  | .starting => True
  | .holding => True
  | _ => False

theorem not_isStart_following {next : Point} (h : ¬ next.IsStart) (result : Except RunnerError Unit) :
    ¬ (next.following result).IsStart := by
  cases result with
  | error e => exact fun h => h
  | ok u => exact h

theorem not_isStart_afterLook (lastSent : Option Duration) (verdict : LocalRunner.Verdict) :
    ¬ (afterLook lastSent verdict).IsStart := by
  cases verdict <;> exact fun h => h

end Point

/-- A `LocalRunner` and its `Timer` in the hands of a worker. -/
structure Worker where
  runner : LocalRunner
  timer : Timer
  point : Point

/-- What happens to the child in one `Step` of the worker. -/
inductive Happening where
  | quiet
  /-- A new child, `pid`, is held. -/
  | stored (pid : Nat)
  /-- One `look`, with the child that it finds and the signal that it delivers. -/
  | looked (child : Option Nat) (signal : Option Signal) (verdict : LocalRunner.Verdict)

namespace Worker

/-- The worker with a new shared state `core`, at `point`. -/
def withCore (w : Worker) (core : Core) (point : Point) : Worker :=
  { w with runner := { w.runner with core }, point }

/-- **`Step`** — one step of the worker. What the operating system does is not determined. -/
inductive Step : Worker → Happening → Worker → Prop where
  -- a start
  | spawnRefused {w : Worker} {last : Option (Except RunnerError Unit)} :
      w.point = .idle last → w.runner.core.phase ≠ .created →
      Step w .quiet
        { w with point := .idle (some (.error (.invalidState "spawn" w.runner.core.phase))) }
  | spawn {w : Worker} {last : Option (Except RunnerError Unit)} :
      w.point = .idle last → w.runner.core.phase = .created →
      Step w .quiet { w with point := .starting }
  | noCapture {w : Worker} (reason : String) : w.point = .starting →
      Step w .quiet { w with point := .idle (some (.error (.io reason))) }
  | refused {w : Worker} (reason : String) : w.point = .starting →
      Step w .quiet { w with point := .idle (some (.error
        (.spawnFailed (Utf8.decodeLossy w.runner.command.program) reason))) }
  | store {w : Worker} (pid : Nat) : w.point = .starting →
      Step w (.stored pid) { w with runner := w.runner.hold pid, point := .holding }
  | mark {w : Worker} : w.point = .holding →
      Step w .quiet (w.withCore w.runner.core.markSpawned.1
        (Point.marked.following w.runner.core.markSpawned.2))
  | time {w : Worker} (now : Duration) : w.point = .marked →
      Step w .quiet { w with timer := w.timer.start now, point := .idle (some (.ok ())) }
  -- a wait
  | wait {w : Worker} {last : Option (Except RunnerError Unit)} : w.point = .idle last →
      Step w .quiet
        { w with point := (Point.polling none).following (w.runner.core.ensureSpawned "wait") }
  | look {w : Worker} {lastSent : Option Duration} (l : LocalRunner.Look) :
      w.point = .polling lastSent →
      Step w
        (.looked w.runner.child (LocalRunner.look ⟨w.runner, lastSent⟩ l).2.1
          (LocalRunner.look ⟨w.runner, lastSent⟩ l).2.2)
        { w with
          runner := (LocalRunner.look ⟨w.runner, lastSent⟩ l).1.runner
          point := .afterLook (LocalRunner.look ⟨w.runner, lastSent⟩ l).1.lastSent
            (LocalRunner.look ⟨w.runner, lastSent⟩ l).2.2 }
  | stop {w : Worker} {status : ExitStatus} (now : Duration) : w.point = .ended status →
      Step w .quiet { w with timer := w.timer.stop now, point := .stopped status }
  | report {w : Worker} {status : ExitStatus} : w.point = .stopped status →
      Step w .quiet { w with runner := w.runner.reportTimeout, point := .reported status }
  | skip {w : Worker} {status : ExitStatus} : w.point = .reported status →
      w.runner.capturing = false → Step w .quiet { w with point := .collected status }
  | read {w : Worker} {status : ExitStatus} (captured : Stream) : w.point = .reported status →
      w.runner.capturing = true →
      Step w .quiet
        { w with
          runner := { w.runner with core := (w.runner.core.readStream captured).1, capturing := false }
          point := .read status (w.runner.core.readStream captured).2 }
  | append {w : Worker} {status : ExitStatus} {text : String} : w.point = .read status text →
      Step w .quiet (w.withCore (w.runner.core.append text).1
        ((Point.collected status).following (w.runner.core.append text).2))
  | confirm {w : Worker} {status : ExitStatus} : w.point = .collected status →
      Step w .quiet { w with
        point := (Point.confirmed status).following (w.runner.core.ensureSpawned "complete") }
  | record {w : Worker} {status : ExitStatus} : w.point = .confirmed status →
      Step w .quiet (w.withCore (w.runner.core.setExitCode status.code).1
        (Point.coded.following (w.runner.core.setExitCode status.code).2))
  | finish {w : Worker} (files : FileView) : w.point = .coded →
      Step w .quiet (w.withCore (w.runner.core.finalize files).1
        (.idle (some (w.runner.core.finalize files).2)))

/-! ## Calls without interruption -/

/-- Some `Step`s lead from `w` to `w'`. -/
def Reaches (w w' : Worker) : Prop := ∃ trace, Run Step w trace w'

theorem Reaches.refl (w : Worker) : Reaches w w := ⟨[], .nil⟩

theorem Reaches.trans {w₁ w₂ w₃ : Worker} (h : Reaches w₁ w₂) (h' : Reaches w₂ w₃) :
    Reaches w₁ w₃ := by
  obtain ⟨trace, hrun⟩ := h
  obtain ⟨trace', hrun'⟩ := h'
  exact ⟨trace ++ trace', hrun.append hrun'⟩

theorem Step.reaches {w w' : Worker} {h : Happening} (hstep : Step w h w') : Reaches w w' :=
  ⟨[h], Run.nil.snoc hstep⟩

/-- **A `spawn`** is its steps. -/
theorem spawn_steps (r : LocalRunner) (timer : Timer) (last : Option (Except RunnerError Unit))
    (start : LocalRunner.Start) (now : Duration) :
    Reaches ⟨r, timer, .idle last⟩
      ⟨(r.spawn timer start now).1, (r.spawn timer start now).2.1,
        .idle (some (r.spawn timer start now).2.2)⟩ := by
  unfold LocalRunner.spawn
  by_cases hphase : r.core.phase = .created
  · rw [if_neg (not_not_intro hphase)]
    have hstarting : Reaches ⟨r, timer, .idle last⟩ ⟨r, timer, .starting⟩ :=
      (Step.spawn rfl hphase).reaches
    -- a start that fails goes back at once; one that succeeds takes three more steps
    cases start with
    | noCapture reason => exact hstarting.trans (Step.noCapture reason rfl).reaches
    | refused reason => exact hstarting.trans (Step.refused reason rfl).reaches
    | started pid =>
        have hheld : Reaches ⟨r, timer, .starting⟩ ⟨r.hold pid, timer, .holding⟩ :=
          (Step.store pid rfl).reaches
        rcases (r.hold pid).core.markSpawned_cases with ⟨_, h⟩ | ⟨hne, _⟩
        · have hmark : Reaches ⟨r.hold pid, timer, .holding⟩ ⟨r.launched pid, timer, .marked⟩ := by
            have hstep := (Step.mark (w := ⟨r.hold pid, timer, .holding⟩) rfl).reaches
            rw [withCore, h] at hstep
            exact hstep
          simp only [h]
          exact ((hstarting.trans hheld).trans hmark).trans (Step.time now rfl).reaches
        · exact absurd hphase hne
  · rw [if_pos hphase]
    exact (Step.spawnRefused rfl hphase).reaches

/-! ### A wait -/

/-- The looks of a wait lead to the verdict of `watch`. -/
theorem watch_steps (r : LocalRunner) (lastSent : Option Duration) (timer : Timer)
    (looks : List LocalRunner.Look) :
    Reaches ⟨r, timer, .polling lastSent⟩
      ⟨(LocalRunner.watch ⟨r, lastSent⟩ looks).1.runner, timer,
        .afterLook (LocalRunner.watch ⟨r, lastSent⟩ looks).1.lastSent
          (LocalRunner.watch ⟨r, lastSent⟩ looks).2.2⟩ := by
  induction looks generalizing r lastSent with
  | nil => exact Reaches.refl _
  | cons l looks ih =>
      have hlook := (Step.look (w := ⟨r, timer, .polling lastSent⟩) l rfl).reaches
      rcases hout : LocalRunner.look ⟨r, lastSent⟩ l with ⟨⟨r', lastSent'⟩, signal, verdict⟩
      simp only [hout] at hlook
      cases verdict with
      | running =>
          rw [LocalRunner.watch_cons_running looks hout]
          exact hlook.trans (ih r' lastSent')
      | ended status => rw [LocalRunner.watch_cons_ended looks hout]; exact hlook
      | failed e => rw [LocalRunner.watch_cons_failed looks hout]; exact hlook

/-- The steps from `.collected` on make up `Core.complete`. -/
theorem complete_steps (r : LocalRunner) (timer : Timer) (status : ExitStatus) (files : FileView) :
    Reaches ⟨r, timer, .collected status⟩
      ⟨{ r with core := (r.core.complete files status.code).1 }, timer,
        .idle (some (r.core.complete files status.code).2)⟩ := by
  have hconfirm := (Step.confirm (w := ⟨r, timer, .collected status⟩) rfl).reaches
  unfold Core.complete
  rcases r.core.ensureSpawned_cases "complete" with ⟨_, h⟩ | ⟨_, h⟩
  · rw [h] at hconfirm ⊢
    have hrecord := (Step.record (w := ⟨r, timer, .confirmed status⟩) rfl).reaches
    rcases hset : r.core.setExitCode status.code with ⟨core, result⟩
    simp only [hset, withCore] at hrecord
    cases result with
    | error e => exact hconfirm.trans hrecord
    | ok u => exact (hconfirm.trans hrecord).trans (Step.finish files rfl).reaches
  · rw [h] at hconfirm ⊢
    exact hconfirm

/-- The steps from `.reported` on that `collect` what the child wrote. -/
theorem collect_steps (r : LocalRunner) (timer : Timer) (status : ExitStatus) (captured : Stream) :
    Reaches ⟨r, timer, .reported status⟩
      ⟨(r.collect captured).1, timer,
        (Point.collected status).following (r.collect captured).2⟩ := by
  unfold LocalRunner.collect
  by_cases hcap : r.capturing = true
  · rw [if_pos hcap]
    have hread := (Step.read (w := ⟨r, timer, .reported status⟩) captured rfl hcap).reaches
    exact hread.trans (Step.append rfl).reaches
  · rw [if_neg hcap]
    exact (Step.skip rfl (Bool.eq_false_iff.mpr hcap)).reaches

/-- **A `wait`** that ends is its steps. -/
theorem wait_steps {r : LocalRunner} {timer : Timer} (last : Option (Except RunnerError Unit))
    {looks : List LocalRunner.Look} {ending : LocalRunner.Ending}
    {end_ : LocalRunner × Timer × Except RunnerError Unit}
    (h : r.wait timer looks ending = some end_) :
    Reaches ⟨r, timer, .idle last⟩ ⟨end_.1, end_.2.1, .idle (some end_.2.2)⟩ := by
  unfold LocalRunner.wait at h
  -- the critical sections in their order: the check, the looks, the timer, the report, the rest
  have hwait := (Step.wait (w := ⟨r, timer, .idle last⟩) rfl).reaches
  rcases r.core.ensureSpawned_cases "wait" with ⟨_, hensure⟩ | ⟨_, hensure⟩
  · simp only [hensure] at h hwait
    have hwatch := hwait.trans (watch_steps r none timer looks)
    rcases hout : LocalRunner.watch ⟨r, none⟩ looks with ⟨⟨r', lastSent⟩, signals, verdict⟩
    simp only [hout] at h hwatch
    cases verdict with
    | running => cases h
    | failed e => cases h; exact hwatch
    | ended status =>
        cases h
        have hstop := (Step.stop (w := ⟨r', timer, .ended status⟩) ending.now rfl).reaches
        have hreport := hstop.trans (Step.report rfl).reaches
        have hcollect := hreport.trans (collect_steps _ _ status ending.captured)
        have hall := hwatch.trans hcollect
        unfold LocalRunner.conclude
        rcases hgot : r'.reportTimeout.collect ending.captured with ⟨r'', result⟩
        simp only [hgot] at hall ⊢
        cases result with
        | error e => exact hall
        | ok u => exact hall.trans (complete_steps r'' _ status ending.files)
  · simp only [hensure] at h hwait
    cases h
    exact hwait

/-! ## What a step does to the child -/

/-- **`Calm`** — the child stays, and the run only leaves phase `.created`: it is in that phase after a step
    only if it was before. A start that holds its child and has still to mark the run counts as past that
    phase. -/
structure Calm (w w' : Worker) : Prop where
  child : w'.runner.child = w.runner.child
  created : w'.runner.core.phase = .created → w'.point ≠ .holding →
    w.runner.core.phase = .created ∧ w.point ≠ .holding
  start : w'.point.IsStart → w'.runner.core.phase = .created

theorem calm_point {w : Worker} (timer : Timer) {point : Point} (hpoint : w.point ≠ .holding)
    (hstart : ¬ point.IsStart) : Calm w { w with timer, point } :=
  ⟨rfl, fun h _ => ⟨h, hpoint⟩, fun h => absurd h hstart⟩

theorem calm_core {w : Worker} (operation : Operation) {point : Point} (hpoint : w.point ≠ .holding)
    (hstart : ¬ point.IsStart) :
    Calm w (w.withCore (w.runner.core.perform operation).1 point) :=
  ⟨rfl, fun h _ => ⟨(w.runner.core.perform_change operation).of_created h, hpoint⟩,
    fun h => absurd h hstart⟩

/-- **A `.quiet` step is `Calm`.** -/
theorem Step.calm {w w' : Worker} (h : Step w .quiet w') : Calm w w' := by
  cases h with
  | spawnRefused hpoint _ => exact calm_point w.timer (by rw [hpoint]; nofun) id
  | spawn hpoint hphase =>
      exact ⟨rfl, fun h _ => ⟨h, by rw [hpoint]; nofun⟩, fun _ => hphase⟩
  | noCapture _ hpoint => exact calm_point w.timer (by rw [hpoint]; nofun) id
  | refused _ hpoint => exact calm_point w.timer (by rw [hpoint]; nofun) id
  | mark hpoint =>
      refine ⟨rfl, fun h _ => ?_, fun h => absurd h (Point.not_isStart_following id _)⟩
      -- whether or not it is refused, marking leaves the run past its first phase
      have hphase : w.runner.core.markSpawned.1.phase = .created := h
      rcases w.runner.core.markSpawned_cases with ⟨_, hmark⟩ | ⟨hne, hmark⟩ <;> rw [hmark] at hphase
      · cases hphase
      · exact absurd hphase hne
  | time _ hpoint => exact calm_point _ (by rw [hpoint]; nofun) id
  | wait hpoint =>
      exact calm_point w.timer (by rw [hpoint]; nofun) (Point.not_isStart_following id _)
  | stop _ hpoint => exact calm_point _ (by rw [hpoint]; nofun) id
  | report hpoint =>
      refine ⟨w.runner.child_reportTimeout, ?_, fun h => h.elim⟩
      intro hphase _
      exact ⟨w.runner.phase_reportTimeout.symm.trans hphase, by rw [hpoint]; nofun⟩
  | skip hpoint _ => exact calm_point w.timer (by rw [hpoint]; nofun) id
  | read _ hpoint _ => exact ⟨rfl, fun h _ => ⟨h, by rw [hpoint]; nofun⟩, fun h => h.elim⟩
  | @append status text hpoint =>
      exact calm_core (.append text) (by rw [hpoint]; nofun) (Point.not_isStart_following id _)
  | confirm hpoint =>
      exact calm_point w.timer (by rw [hpoint]; nofun) (Point.not_isStart_following id _)
  | @record status hpoint =>
      exact calm_core (.setExitCode status.code) (by rw [hpoint]; nofun)
        (Point.not_isStart_following id _)
  | finish files hpoint =>
      exact calm_core (.finalize files) (by rw [hpoint]; nofun) id

/-- **`Looked`** — what a look does: it signals only a child that is held, and lets the child go only when it
    sees its end. It touches neither the shared state nor the flag `killed`. -/
structure Looked (w : Worker) (child : Option Nat) (signal : Option Signal)
    (verdict : LocalRunner.Verdict) (w' : Worker) : Prop where
  found : child = w.runner.child
  aimed : signal ≠ none → w.runner.child ≠ none
  outcome : (w'.runner.child = w.runner.child ∧ ∀ status, verdict ≠ .ended status) ∨
    (w.runner.child ≠ none ∧ w'.runner.child = none)
  core : w'.runner.core = w.runner.core
  killed : w'.runner.killed = w.runner.killed
  point : w.point ≠ .holding
  start : ¬ w'.point.IsStart

theorem Step.looked {w w' : Worker} {child : Option Nat} {signal : Option Signal}
    {verdict : LocalRunner.Verdict} (h : Step w (.looked child signal verdict) w') :
    Looked w child signal verdict w' := by
  cases h with
  | @look lastSent l hpoint =>
      have hstart := Point.not_isStart_afterLook (LocalRunner.look ⟨w.runner, lastSent⟩ l).1.lastSent
        (LocalRunner.look ⟨w.runner, lastSent⟩ l).2.2
      rcases LocalRunner.look_cases ⟨w.runner, lastSent⟩ l with
        ⟨timedOut, hrunner, hverdict, hsignal⟩ | ⟨pid, status, hchild, hlook⟩
      · rw [hrunner]
        exact ⟨rfl, hsignal, Or.inl ⟨rfl, hverdict⟩, rfl, rfl, by rw [hpoint]; nofun, hstart⟩
      · have hheld : w.runner.child ≠ none := by
          rw [show w.runner.child = some pid from hchild]; exact Option.some_ne_none pid
        rw [hlook] at hstart ⊢
        exact ⟨rfl, fun h => absurd rfl h, Or.inr ⟨hheld, rfl⟩, rfl, rfl, by rw [hpoint]; nofun, hstart⟩

/-- No `Step` of the worker is a kill from outside, so `killed` stays. -/
theorem Step.killed {w w' : Worker} {happening : Happening} (h : Step w happening w') :
    w'.runner.killed = w.runner.killed := by
  cases h with
  | look l hpoint => exact (Step.look l hpoint).looked.killed
  | report _ => exact w.runner.killed_reportTimeout
  | _ => rfl

end Worker

end TestHarness
