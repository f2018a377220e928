import TestHarness.Proofs.Core.Runs
import TestHarness.Proofs.Local.Calls
import TestHarness.Session

/-!
# Spawns that fail

A spawn fails because the run has left phase `created`, because there is no capture to be had, or because
the host does not start the command. These are all the ways in which it can fail (`spawn_cases`), and in
each of them nothing has happened yet: the runner, the timer and the host are those from before. Marking
the run as spawned comes last, when the child is already held, but it is refused in other phases only, and
those have been turned away at the beginning.

So a spawn that fails might as well not have been asked for. Whatever else happens to a session, before and
after, a session without its failed spawns goes through the same states (`transcript_kept`), and the spawn
that succeeds in the end is its first.

## Contents
* `Host.Refuses`, why a host does not start a command
* `Session.Hindered`, why a spawn fails
* `Session.Begun`, which no step takes back
* `Session.Event`, what can happen to a session, and the failed spawns among it
* `failed_spawn_unseen`
-/

namespace TestHarness

/-! ## Starting a command on a host -/

namespace Host

/-- **`Refuses`** — why a host does not start a command, with the reason that it gives. Each cause is looked
    for only if the ones before it are absent. -/
inductive Refuses (h : Host) (cwd : Location) (c : Command) : String → Prop where
  /-- The program, an argument, the environment or the directory contains a NUL (`hasNul`). -/
  | nul : c.hasNul = true → Refuses h cwd c nulReason
  /-- The host starts nothing: `startFault`. -/
  | fault {launch : Launch} {reason : String} : c.launch? = some launch → h.startFault = some reason →
      Refuses h cwd c reason
  /-- The working directory, `launch.cwd`, is missing or is none. -/
  | directory {launch : Launch} {e : FileFault} : c.launch? = some launch → h.startFault = none →
      h.directoryFor cwd launch.cwd = .error e → Refuses h cwd c e.reason
  /-- The program, `launch.program`, is missing or cannot be executed. -/
  | program {launch : Launch} {directory : Location} {e : FileFault} : c.launch? = some launch →
      h.startFault = none → h.directoryFor cwd launch.cwd = .ok directory →
      h.programOf directory launch = .error e → Refuses h cwd c e.reason

/-- The first process of a group is the only one that is added by `beginGroup`, and it has not ended. -/
theorem processes_beginGroup (h : Host) (directory location : Location) (launch : Launch) :
    ∃ p, (h.beginGroup directory location launch).1.processes = h.processes ++ [p] ∧
      p.pid = (h.beginGroup directory location launch).2 ∧ p.hasEnded = false := ⟨_, rfl, rfl, rfl⟩

theorem launch?_eq_none_iff {c : Command} : c.launch? = none ↔ c.hasNul = true := by
  unfold Command.launch?
  split
  · next h => exact iff_of_true rfl h
  · next h => exact iff_of_false nofun h

/-- **A refused start** gives the `reason` of what comes first. -/
theorem start_of_refuses {h : Host} {cwd : Location} {c : Command} {reason : String}
    (hrefuses : h.Refuses cwd c reason) : h.start cwd c = .error reason := by
  unfold start
  cases hrefuses with
  | nul hnul => rw [launch?_eq_none_iff.mpr hnul]
  | fault hlaunch hfault => rw [hlaunch, hfault]
  | directory hlaunch hfault hdirectory => simp only [hlaunch, hfault, hdirectory]
  | program hlaunch hfault hdirectory hprogram =>
      simp only [hlaunch, hfault, hdirectory, hprogram]

/-- **A `start`** adds one process to the host, unless the host `Refuses` it. -/
theorem start_cases (h : Host) (cwd : Location) (c : Command) :
    (∃ reason, h.Refuses cwd c reason) ∨
    (∃ host p, h.start cwd c = .ok (host, p.pid) ∧ host.processes = h.processes ++ [p] ∧
      p.hasEnded = false) := by
  cases hlaunch : c.launch? with
  | none => exact Or.inl ⟨nulReason, .nul (launch?_eq_none_iff.mp hlaunch)⟩
  | some launch =>
      cases hfault : h.startFault with
      | some reason => exact Or.inl ⟨reason, .fault hlaunch hfault⟩
      | none =>
          cases hdirectory : h.directoryFor cwd launch.cwd with
          | error e => exact Or.inl ⟨e.reason, .directory hlaunch hfault hdirectory⟩
          | ok directory =>
              cases hprogram : h.programOf directory launch with
              | error e => exact Or.inl ⟨e.reason, .program hlaunch hfault hdirectory hprogram⟩
              | ok location =>
                  obtain ⟨p, hp, hpid, hend⟩ := h.processes_beginGroup directory location launch
                  refine Or.inr ⟨(h.beginGroup directory location launch).1, p, ?_, hp, hend⟩
                  unfold start
                  simp only [hlaunch, hfault, hdirectory, hprogram, hpid]

end Host

@[simp] theorem AnyRunner.core_withCore (r : AnyRunner) (core : Core) : (r.withCore core).core = core := by
  cases r <;> rfl

/-- A replay that waits stays in phase `.created` only if it is there. -/
theorem ReplayRunner.phase_of_wait {r : ReplayRunner} {timer : Timer} {files : FileView} {now : Duration}
    (hfirst : (r.wait timer files now).1.core.phase = .created) : r.core.phase = .created := by
  unfold wait at hfirst
  rcases r.core.ensureSpawned_cases "wait" with ⟨hphase, h⟩ | ⟨_, h⟩
  · simp only [h] at hfirst
    have hbytes : (r.core.appendBytes r.data).1.phase = .created → r.core.phase = .created :=
      (r.core.perform_change (.appendBytes r.data)).of_created
    split at hfirst
    · next happend =>
        rw [happend] at hbytes
        exact hbytes hfirst
    · next happend =>
        rw [happend] at hbytes
        exact hbytes ((Core.perform_change _ (.complete files r.code)).of_created hfirst)
  · simp only [h] at hfirst
    exact hfirst

namespace Session

/-! ## Spawning -/

/-- **`Hindered`** — why a spawn fails, with the error that it answers. Here too a cause is looked for only if
    the ones before it are absent. -/
inductive Hindered (s : Session) (r : LocalRunner) : RunnerError → Prop where
  | phase : r.core.phase ≠ .created → Hindered s r (.invalidState "spawn" r.core.phase)
  /-- No file for the output, or no second handle on it, can be had: `captureFault`. -/
  | capture {reason : String} : r.core.phase = .created → s.host.captureFault = some reason →
      Hindered s r (.io reason)
  | command {reason : String} : r.core.phase = .created → s.host.captureFault = none →
      s.host.Refuses s.cwd r.command reason →
      Hindered s r (.spawnFailed (Utf8.decodeLossy r.command.program) reason)

/-- In phase `.created` it is the host that decides, by `startCommand`. -/
theorem spawn_of_created {s : Session} {r : LocalRunner} (hr : s.runner = .child r)
    (hphase : r.core.phase = .created) {host : Host} {start : LocalRunner.Start}
    (hstart : s.startCommand r.command = (host, start)) :
    s.spawn = ({ s with
      runner := .child (r.spawn s.timer start s.host.clock).1
      timer := (r.spawn s.timer start s.host.clock).2.1
      host }, .ofExcept (r.spawn s.timer start s.host.clock).2.2) := by
  unfold spawn
  simp only [hr]
  rw [if_pos hphase, hstart]

/-- **A `Hindered` spawn** leaves the whole session as it is. -/
theorem spawn_of_hindered {s : Session} {r : LocalRunner} (hr : s.runner = .child r) {e : RunnerError}
    (h : s.Hindered r e) : s.spawn = (s, .failed e) := by
  -- a session with its own runner, timer and host put in again is the same session
  have hsame : ({ s with runner := .child r, timer := s.timer, host := s.host } : Session) = s := by
    rw [← hr]
  cases h with
  | phase hphase =>
      unfold spawn LocalRunner.spawn
      simp only [hr, if_neg hphase, if_pos hphase]
      exact congrArg (·, _) hsame
  | @capture reason hphase hcapture =>
      have hstart : s.startCommand r.command = (s.host, .noCapture reason) := by
        unfold startCommand
        rw [hcapture]
      rw [spawn_of_created hr hphase hstart, LocalRunner.spawn_noCapture hphase]
      exact congrArg (·, _) hsame
  | @command reason hphase hcapture hrefuses =>
      have hstart : s.startCommand r.command = (s.host, .refused reason) := by
        unfold startCommand
        rw [hcapture, Host.start_of_refuses hrefuses]
      rw [spawn_of_created hr hphase hstart, LocalRunner.spawn_refused hphase]
      exact congrArg (·, _) hsame

/-- **A spawn** is `Hindered`, or starts the run, its timer and one process. -/
theorem spawn_cases {s : Session} {r : LocalRunner} (hr : s.runner = .child r) :
    (∃ e, s.Hindered r e) ∨
    (∃ host p, r.core.phase = .created ∧ host.processes = s.host.processes ++ [p] ∧
      p.hasEnded = false ∧ s.spawn = ({ s with
        runner := .child (r.launched p.pid), timer := s.timer.start s.host.clock, host }, .done)) := by
  by_cases hphase : r.core.phase = .created
  · cases hcapture : s.host.captureFault with
    | some reason => exact Or.inl ⟨_, .capture hphase hcapture⟩
    | none =>
        rcases s.host.start_cases s.cwd r.command with ⟨reason, hrefuses⟩ | ⟨host, p, hhost, hp, hend⟩
        · exact Or.inl ⟨_, .command hphase hcapture hrefuses⟩
        · have hstart : s.startCommand r.command = (host, .started p.pid) := by
            unfold startCommand
            rw [hcapture, hhost]
          refine Or.inr ⟨host, p, hphase, hp, hend, ?_⟩
          rw [spawn_of_created hr hphase hstart, LocalRunner.spawn_started hphase]
          rfl
  · exact Or.inl ⟨_, .phase hphase⟩

/-- A spawn fails with the error of what hinders it (`s.Hindered r e`), and with no other. -/
theorem spawn_failed_iff {s : Session} {r : LocalRunner} (hr : s.runner = .child r) {e : RunnerError} :
    s.spawn.2 = .failed e ↔ s.Hindered r e := by
  constructor
  · intro hfailed
    rcases spawn_cases hr with ⟨e', h⟩ | ⟨host, p, _, _, _, hdone⟩
    · rw [spawn_of_hindered hr h] at hfailed
      cases hfailed
      exact h
    · rw [hdone] at hfailed
      cases hfailed
  · intro h
    rw [spawn_of_hindered hr h]

/-- **A failed spawn** changes nothing, whatever the session runs: `s.spawn.1 = s`. -/
theorem spawn_of_failed {s : Session} {e : RunnerError} (h : s.spawn.2 = .failed e) : s.spawn.1 = s := by
  cases hr : s.runner with
  | child r => rw [spawn_of_hindered hr ((spawn_failed_iff hr).mp h)]
  | replay r =>
      have hsame : ({ s with runner := .replay r, timer := s.timer } : Session) = s := by rw [← hr]
      unfold spawn ReplayRunner.spawn at h ⊢
      simp only [hr] at h ⊢
      rcases r.core.markSpawned_cases with ⟨_, hm⟩ | ⟨_, hm⟩ <;> simp only [hm] at h ⊢
      · cases h
      · exact hsame

/-! ## Runs that have begun -/

/-! Kills and looks leave alone the state that every runner has. -/

theorem core_kill (r : LocalRunner) : r.kill.1.core = r.core := by
  rcases r.kill_cases with ⟨_, _, h⟩ | ⟨_, h⟩ <;> rw [h]

theorem core_look (w : LocalRunner.Wait) (l : LocalRunner.Look) :
    (LocalRunner.look w l).1.runner.core = w.runner.core := by
  rcases LocalRunner.look_cases w l with ⟨timedOut, h, _⟩ | ⟨pid, status, _, h⟩ <;> rw [h] <;> rfl

theorem core_pause (s : Session) (w : LocalRunner.Wait) (killAt : Option Duration) :
    (s.pause w killAt).2.1.runner.core = w.runner.core := by
  unfold pause
  cases killAt with
  | none => rfl
  | some time =>
      dsimp only
      split
      · exact core_kill w.runner
      · rfl

/-- However often `watchChild` looks, it is about the run that the wait began with. -/
theorem core_watchChild (n : Nat) (s : Session) (w : LocalRunner.Wait) (killAt : Option Duration) :
    (watchChild n s w killAt).2.1.runner.core = w.runner.core := by
  induction n generalizing s w killAt with
  | zero => rfl
  | succ n ih =>
      have hlook : (s.poll w).2.1.runner.core = w.runner.core := core_look w _
      rw [watchChild]
      rcases hpoll : s.poll w with ⟨s', w', verdict⟩
      rw [hpoll] at hlook
      cases verdict with
      | running => exact (ih _ _ _).trans ((core_pause s' w' killAt).trans hlook)
      | ended status => exact hlook
      | failed e => exact hlook

theorem core_killLater (s : Session) (r : LocalRunner) (killAt : Option Duration) :
    (s.killLater r killAt).2.core = r.core := by
  cases killAt with
  | none => rfl
  | some time => exact core_kill r

/-- **`Begun`** — the run has left phase `.created`. -/
def Begun (s : Session) : Prop := s.runner.core.phase ≠ .created

theorem begun_waitChild {s : Session} {r : LocalRunner} (hr : r.core.phase ≠ .created)
    (killAt : Option Duration) : (s.waitChild r killAt).1.Begun := by
  have hfinish : ∀ (s : Session) (r : LocalRunner) (killAt : Option Duration),
      r.core.phase ≠ .created → (s.killLater r killAt).2.core.phase ≠ .created := by
    intro s r killAt h
    rw [core_killLater]
    exact h
  unfold waitChild
  rcases r.core.ensureSpawned_cases "wait" with ⟨hspawned, h⟩ | ⟨_, h⟩
  · have hwatch := core_watchChild patience s { runner := r } killAt
    simp only [h]
    rcases hlooks : watchChild patience s { runner := r } killAt with ⟨s', w, killAt', verdict⟩
    rw [hlooks] at hwatch
    have hw : w.runner.core.phase = .spawned := (congrArg Core.phase hwatch).trans hspawned
    have hbegun : w.runner.core.phase ≠ .created := by rw [hw]; decide
    cases verdict with
    | running => exact hfinish s' w.runner killAt' hbegun
    | failed e => exact hfinish s' w.runner killAt' hbegun
    | ended status =>
        refine hfinish _ _ killAt' ?_
        -- the run is completed then, unless somebody has recorded an exit code before
        rcases LocalRunner.conclude_cases hw s'.timer status
            { captured := { data := s'.host.capture }, files := s'.files, now := s'.host.clock } with
          ⟨_, hc⟩ | ⟨_, _, hc⟩ <;> rw [hc]
        · exact nofun
        · rw [LocalRunner.phase_settled]
          exact hbegun
  · simp only [h]
    exact hfinish s r killAt hr

theorem runner_waitFile (file : Path) (n : Nat) (s : Session) : (waitFile file n s).runner = s.runner := by
  induction n generalizing s with
  | zero => rfl
  | succ n ih =>
      rw [waitFile]
      split
      · rfl
      · exact ih _

theorem begun_withCore {s : Session} {core : Core} (h : core.phase ≠ .created) :
    Begun { s with runner := s.runner.withCore core } := by
  unfold Begun
  rw [AnyRunner.core_withCore]
  exact h

namespace Begun

variable {s : Session} (h : s.Begun)
include h

theorem phase_of_runner {r : AnyRunner} (hr : s.runner = r) : r.core.phase ≠ .created := hr ▸ h

theorem call (operation : Operation) : (s.call operation).1.Begun := by
  refine begun_withCore ?_
  intro hfirst
  exact h ((s.runner.core.perform_change operation).of_created hfirst)

/-- A second spawn is refused, by either runner, so the run is `Begun` after any. -/
theorem spawn : s.spawn.1.Begun := by
  cases hr : s.runner with
  | child r =>
      have hphase : r.core.phase ≠ .created := h.phase_of_runner hr
      rw [spawn_of_hindered hr (.phase hphase)]
      exact h
  | replay r =>
      have hphase : r.core.phase ≠ .created := h.phase_of_runner hr
      unfold Session.spawn ReplayRunner.spawn
      rcases r.core.markSpawned_cases with ⟨hfirst, _⟩ | ⟨_, hm⟩
      · exact absurd hfirst hphase
      · simp only [hr, hm]
        exact hphase

theorem kill : s.kill.Begun := by
  unfold Begun Session.kill at *
  cases hr : s.runner with
  | replay r => exact h
  | child r =>
      rw [hr] at h
      show r.kill.1.core.phase ≠ .created
      rw [core_kill]
      exact h

theorem sendSignal (name : String) : (s.sendSignal name).1.Begun := by
  unfold Session.sendSignal
  cases Signal.ofName? name with
  | none => exact h
  | some signal =>
      cases hr : s.runner with
      | replay r => exact h
      | child r =>
          dsimp only
          split <;> exact h

theorem wait (killAfter : Option Duration) : (s.wait killAfter).1.Begun := by
  unfold Session.wait
  cases hr : s.runner with
  | replay r =>
      intro hfirst
      refine h ?_
      rw [hr]
      exact r.phase_of_wait hfirst
  | child r =>
      have hphase : r.core.phase ≠ .created := h.phase_of_runner hr
      exact begun_waitChild hphase _

/-- **No step leads back** to phase `.created`: the session stays `Begun`. -/
theorem take (step : Step) : (s.take step).1.Begun := by
  cases step with
  | markSpawned => exact h.call _
  | ensureSpawned operation => exact h.call _
  | append text => exact h.call _
  | appendBytes bytes => exact h.call _
  | setExitCode code => exact h.call _
  | finalize => exact h.call _
  | complete code => exact h.call _
  | readOutput stream => exact begun_withCore h
  | setStatus kind message =>
      simp only [Session.take]
      split
      · exact begun_withCore h
      · exact h
  | addCaveat text => exact begun_withCore h
  | debugJob => exact h
  | spawn => exact h.spawn
  | kill => exact h.kill
  | sendSignal signal => exact h.sendSignal signal
  | wait killAfter => exact h.wait killAfter
  | startTimer => exact h
  | stopTimer => exact h
  | put file data => exact h
  | remove file => exact h
  | sleep time => exact h
  | waitFile file =>
      show (waitFile file 10000 s).runner.core.phase ≠ .created
      rw [runner_waitFile]
      exact h

end Begun

/-! ## Histories -/

/-- What happens to a session: a `Step` of its own, or a change of the host that comes from elsewhere. -/
inductive Event where
  | step (step : Step)
  | outside (change : Host → Host)

/-- The session after an `Event`, and what is seen then. -/
def happen (s : Session) : Event → Session × View
  | .step step => ((s.take step).1, (s.take step).1.view (s.take step).2)
  | .outside change =>
    ({ s with host := change s.host }, { s with host := change s.host }.view .done)

/-- The session after `events`. -/
def after (s : Session) (events : List Event) : Session :=
  events.foldl (fun s event => (s.happen event).1) s

/-- The events, each with the `View` that is seen after it. -/
def transcript (s : Session) : List Event → List (Event × View)
  | [] => []
  | event :: rest => (event, (s.happen event).2) :: (s.happen event).1.transcript rest

theorem after_cons (s : Session) (event : Event) (rest : List Event) :
    s.after (event :: rest) = (s.happen event).1.after rest := rfl

/-- Whether a `Result` is an error. -/
def Result.isFailed : Result → Bool
  | failed _ => true
  | _ => false

/-- Whether an `Event` is a spawn that was answered with an error. -/
def isFailedSpawn : Event × View → Bool
  | (.step .spawn, seen) => seen.result.isFailed
  | _ => false

/-- The events that are no failed spawns (`isFailedSpawn`). -/
def kept (s : Session) (events : List Event) : List Event :=
  ((s.transcript events).filter fun seen => !isFailedSpawn seen).map Prod.fst

theorem Result.isFailed_iff {result : Result} : result.isFailed = true ↔ ∃ e, result = .failed e := by
  cases result with
  | failed e => exact iff_of_true rfl ⟨e, rfl⟩
  | done | text _ | unknownName | endless => exact iff_of_false nofun nofun

theorem isFailedSpawn_iff {event : Event} {seen : View} :
    isFailedSpawn (event, seen) = true ↔ event = .step .spawn ∧ ∃ e, seen.result = .failed e := by
  unfold isFailedSpawn
  split
  · next heq =>
      obtain ⟨rfl, rfl⟩ := Prod.mk.inj heq
      rw [Result.isFailed_iff, and_iff_right rfl]
  · next hother =>
      refine iff_of_false nofun ?_
      rintro ⟨rfl, _⟩
      exact hother seen rfl

/-- **A failed spawn** is a step that stays where it is: `(s.happen event).1 = s`. -/
theorem happen_of_isFailedSpawn {s : Session} {event : Event}
    (h : isFailedSpawn (event, (s.happen event).2) = true) : (s.happen event).1 = s := by
  obtain ⟨rfl, e, hfailed⟩ := isFailedSpawn_iff.mp h
  exact spawn_of_failed hfailed

theorem Begun.happen {s : Session} (h : s.Begun) (event : Event) : (s.happen event).1.Begun := by
  cases event with
  | step step => exact h.take step
  | outside change => exact h

theorem Begun.after {s : Session} (h : s.Begun) (events : List Event) : (s.after events).Begun := by
  induction events generalizing s with
  | nil => exact h
  | cons event rest ih => exact ih (h.happen event)

/-- A spawn that does not fail begins the run (`Begun`). -/
theorem begun_spawn {s : Session} (h : ∀ e, s.spawn.2 ≠ .failed e) : s.spawn.1.Begun := by
  cases hr : s.runner with
  | child r =>
      rcases spawn_cases hr with ⟨e, hindered⟩ | ⟨host, p, _, _, _, hdone⟩
      · exact absurd ((spawn_failed_iff hr).mpr hindered) (h e)
      · rw [hdone]
        show ¬ Phase.spawned = Phase.created
        decide
  | replay r =>
      unfold spawn ReplayRunner.spawn at h ⊢
      rcases r.core.markSpawned_cases with ⟨_, hm⟩ | ⟨_, hm⟩ <;> simp only [hr, hm] at h ⊢
      · show ¬ Phase.spawned = Phase.created
        decide
      · exact absurd rfl (h _)

/-- **A history without its failed spawns**, `s.kept events`, goes through the same states. -/
theorem transcript_kept (s : Session) (events : List Event) :
    s.transcript (s.kept events) = (s.transcript events).filter (fun seen => !isFailedSpawn seen) ∧
    s.after (s.kept events) = s.after events := by
  -- by induction on the events, for every session: a failed spawn hands on the session that it found
  induction events generalizing s with
  | nil => exact ⟨rfl, rfl⟩
  | cons event rest ih =>
      rw [kept, transcript]
      cases hfailed : isFailedSpawn (event, (s.happen event).2) with
      | true =>
          simp only [List.filter_cons, hfailed, Bool.not_true, Bool.false_eq_true, if_false]
          rw [after_cons, happen_of_isFailedSpawn hfailed]
          exact ih s
      | false =>
          obtain ⟨htranscript, hafter⟩ := ih (s.happen event).1
          simp only [List.filter_cons, hfailed, Bool.not_false, if_true, List.map_cons, transcript]
          exact ⟨congrArg _ htranscript, hafter⟩

/-- **As long as the run has not `Begun`** every spawn has failed. -/
theorem spawns_of_created {s : Session} {events : List Event} (h : ¬ (s.after events).Begun) :
    ∀ seen ∈ s.transcript events, seen.1 = .step .spawn → isFailedSpawn seen = true := by
  induction events generalizing s with
  | nil => exact fun seen hmem => absurd hmem List.not_mem_nil
  | cons event rest ih =>
      rw [transcript, List.forall_mem_cons]
      refine ⟨?_, ih h⟩
      rintro rfl
      -- a spawn that does not fail begins the run, and no event leads back
      by_contra hnot
      have hbegun : s.spawn.1.Begun := by
        refine begun_spawn fun e hfailed => hnot ?_
        exact isFailedSpawn_iff.mpr ⟨rfl, e, hfailed⟩
      exact h (hbegun.after rest)

/-- **A failed spawn is unseen.** Let a local runner be asked to spawn, in any state and on any host.

    It fails exactly if something hinders it (`Hindered`), and then the whole session is as before: the
    runner with its phase, exit code, output, status and caveats, with its child, its capture and its two
    marks, the timer, and the host with its processes. Otherwise it starts one process, and the timer, and
    the run.

    What the host does is only one way to start a process. Whatever came of the start, a spawn that answers
    with an error leaves the runner and the timer alone, and has not started a process: marking the run as
    spawned, which comes when the child is held, is not refused in phase `created`.

    Now let anything happen to the session. Without its failed spawns the same happens, in the same states.
    And as long as the run is in phase `created` there are no other spawns: the next one is the first. -/
theorem failed_spawn_unseen (r : LocalRunner) (timer : Timer) (host : Host) (cwd : Location) :
    let s : Session := { runner := .child r, timer, host, cwd }
    (∀ e, s.spawn.2 = .failed e ↔ s.Hindered r e) ∧
    (∀ e, s.spawn.2 = .failed e → s.spawn.1 = s) ∧
    ((∀ e, ¬ s.Hindered r e) → ∃ host' p,
      host'.processes = host.processes ++ [p] ∧ p.hasEnded = false ∧
      s.spawn = ({ s with
        runner := .child (r.launched p.pid), timer := timer.start host.clock, host := host' }, .done)) ∧
    (∀ start now e, (r.spawn timer start now).2.2 = .error e →
      r.spawn timer start now = (r, timer, .error e) ∧
      (r.core.phase = .created → ∀ pid, start ≠ .started pid)) ∧
    (r.core.phase = .created → ∀ pid, (r.hold pid).core.markSpawned.2 = .ok ()) ∧
    (∀ events,
      s.transcript (s.kept events) = (s.transcript events).filter (fun seen => !isFailedSpawn seen) ∧
      s.after (s.kept events) = s.after events ∧
      ((s.after events).runner.core.phase = .created →
        ∀ event ∈ s.kept events, event ≠ .step .spawn)) := by
  intro s
  have hr : s.runner = .child r := rfl
  refine ⟨?_, ?_, ?_, ?_, ?_, ?_⟩
  · intro e
    exact spawn_failed_iff hr
  · intro e hfailed
    exact spawn_of_failed hfailed
  · intro hfree
    rcases spawn_cases hr with ⟨e, h⟩ | ⟨host', p, _, hp, hend, hdone⟩
    · exact absurd h (hfree e)
    · exact ⟨host', p, hp, hend, hdone⟩
  · intro start now e hfailed
    have hcases := r.spawn_cases timer start now
    refine ⟨?_, ?_⟩
    · rcases hcases with ⟨pid, _, _, h⟩ | ⟨e', h⟩ <;> rw [h] at hfailed ⊢ <;> cases hfailed
      rfl
    · rintro hphase pid rfl
      rw [LocalRunner.spawn_started hphase] at hfailed
      cases hfailed
  · intro hphase pid
    rcases (r.hold pid).core.markSpawned_cases with ⟨_, h⟩ | ⟨hne, _⟩
    · rw [h]
    · exact absurd hphase hne
  · intro events
    obtain ⟨htranscript, hafter⟩ := s.transcript_kept events
    refine ⟨htranscript, hafter, ?_⟩
    intro hfirst event hmem hspawn
    obtain ⟨seen, hseen, rfl⟩ := List.mem_map.mp hmem
    obtain ⟨hmade, hnot⟩ := List.mem_filter.mp hseen
    rw [spawns_of_created (not_not_intro hfirst) seen hmade hspawn] at hnot
    cases hnot

/-- A spawn fails while the working directory `/w` is missing, and succeeds once a file has been put there. -/
example :
    let command := (Command.ofProgram (Utf8.encode "/bin/true")).inDirectory ⟨Utf8.encode "/w"⟩
    let s : Session :=
      { runner := .child (.ofJob { tester := Tester.plan { name := "t", command } } {})
        host := { tree := FileTree.withSystem {} } }
    (s.views [.spawn, .spawn, .put ⟨Utf8.encode "/w/x"⟩ [], .spawn]).map (·.result.isFailed)
      = [true, true, false, false] := by
  decide +kernel

end Session

end TestHarness
