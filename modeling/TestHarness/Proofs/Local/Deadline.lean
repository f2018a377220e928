import TestHarness.Proofs.Local.Life
import TestHarness.Proofs.Timer

/-!
# When a run counts as timed out

A wait asks from time to time whether its child still runs, and reads the timer only when it does. So
whether a run has timed out is decided at these polls and nowhere else: it has if and only if the timer had
reached its limit when it was read at a poll that found the child running (`wait_deadline`).

This is not the same as whether the limit was reached before the child ended, and it errs both ways. A
limit that is reached between the last such poll and the child's end is never noticed
(`unseen_deadline`), and a limit that is reached between the two questions of one poll counts even though
the child has ended in between. Either error is bounded by the time between polls and by the time within
one.
-/

namespace TestHarness

namespace LocalRunner

/-! ## Polls -/

/-- One poll, as the instants at which it asks: first for the child (`asked`), then for the timer (`read`),
    and then, past the deadline, for the clock. -/
structure Poll where
  asked : Duration
  read : Duration
  checked : Duration := 0
  sent : Duration := 0
deriving DecidableEq, Repr

/-- What a poll sees of a child that ends at the instant `exit`. -/
def Poll.look (exit : Duration) (status : ExitStatus) (timer : Timer) (poll : Poll) : Look :=
  { sight := if poll.asked < exit then .running else .ended status
    expired := timer.isExpired poll.read
    checked := poll.checked
    sent := poll.sent }

/-- **Close polls**: each comes at most `gap` after the reading of the one before it, and the first one at
    most `gap` after `since`. -/
def Close (gap : Duration) : Duration → List Poll → Prop
  | _, [] => True
  | since, poll :: rest => poll.asked ≤ since + gap ∧ Close gap poll.read rest

/-- `Close` polls leave no more than the gap between a reading and the child's end. -/
theorem reading_of_close {gap exit since : Duration} {running : List Poll} {last : Poll}
    (hclose : Close gap since (running ++ [last])) (hlast : exit ≤ last.asked) :
    exit ≤ since + gap ∨ ∃ poll ∈ running, exit ≤ poll.read + gap := by
  induction running generalizing since with
  | nil => exact Or.inl (Nat.le_trans hlast hclose.1)
  | cons poll running ih =>
      refine Or.inr ?_
      rcases ih hclose.2 with h | ⟨later, hmem, h⟩
      · exact ⟨poll, List.mem_cons_self, h⟩
      · exact ⟨later, List.mem_cons_of_mem _ hmem, h⟩

/-! ## The decision -/

/-- **When a wait that succeeds has timed out.** Take a runner that a successful start and any calls after
    it have left spawned, without an exit code and not timed out, a child that ends at the instant `exit`,
    and polls of which the last one is the first to find it gone. The wait succeeds, and the run has timed
    out if and only if some poll has found the child running and then read the timer when the limit had
    passed.

    So a run that has timed out has reached its limit before the child ended, give or take the time
    between the two questions of a poll, and one whose limit was reached by more than the gap between
    polls before the child ended has timed out. -/
theorem wait_deadline {r₀ r : LocalRunner} {timer : Timer} {launch : Start} {start : Duration}
    {calls : List Call} (hspawn : (r₀.spawn timer launch start).2.2 = .ok ())
    (hcalls : (r₀.spawn timer launch start).1.run calls = some r)
    (hphase : r.core.phase = .spawned) (hcode : r.core.exitCode = none) (hopen : r.timedOut = false)
    {exit : Duration} {running : List Poll} {last : Poll}
    (hrunning : ∀ poll ∈ running, start ≤ poll.read ∧ poll.asked < exit) (hlast : exit ≤ last.asked)
    (status : ExitStatus) (ending : Ending) :
    ∃ r' timer', r.wait (r₀.spawn timer launch start).2.1
        ((running ++ [last]).map (Poll.look exit status (r₀.spawn timer launch start).2.1)) ending
          = some (r', timer', .ok ()) ∧
      (r'.timedOut = true ↔
        ∃ limit ∈ timer.limit, ∃ poll ∈ running, start + limit ≤ poll.read) ∧
      (∀ delay, (∀ poll ∈ running, poll.read ≤ poll.asked + delay) → r'.timedOut = true →
        ∃ limit ∈ timer.limit, start + limit < exit + delay) ∧
      (∀ gap, Close gap start (running ++ [last]) → ∀ limit ∈ timer.limit,
        start + limit + gap < exit → r'.timedOut = true) := by
  have hheld : r.Held := held_of_spawn hspawn hcalls
  obtain ⟨pid, hchild⟩ := hheld.child hcode
  have hstarted : (r₀.spawn timer launch start).2.1 = timer.start start := by
    rcases r₀.spawn_cases timer launch start with ⟨_, _, _, h⟩ | ⟨_, h⟩ <;> rw [h] at hspawn ⊢
    cases hspawn
  rw [hstarted]
  -- the polls that find the child running, and the one that does not
  have hlooks : ∀ look ∈ running.map (Poll.look exit status (timer.start start)),
      look.sight = .running := by
    intro look hmem
    obtain ⟨poll, hpoll, rfl⟩ := List.mem_map.mp hmem
    exact if_pos (hrunning poll hpoll).2
  have hend : (last.look exit status (timer.start start)).sight = .ended status :=
    if_neg (Nat.not_lt.mpr hlast)
  have hexpired : (running.map (Poll.look exit status (timer.start start))).any (·.expired) = true ↔
      ∃ limit ∈ timer.limit, ∃ poll ∈ running, start + limit ≤ poll.read := by
    rw [List.any_map, List.any_eq_true]
    constructor
    · rintro ⟨poll, hmem, hpoll⟩
      obtain ⟨limit, hlimit, h⟩ := (timer.isExpired_start (hrunning poll hmem).1).mp hpoll
      exact ⟨limit, hlimit, poll, hmem, h⟩
    · rintro ⟨limit, hlimit, poll, hmem, h⟩
      exact ⟨poll, hmem, (timer.isExpired_start (hrunning poll hmem).1).mpr ⟨limit, hlimit, h⟩⟩
  rw [List.map_append, List.map_singleton, wait_of_ended hphase hchild hlooks hend, hopen, Bool.false_or]
  -- the rest of the wait keeps what the polls have found
  generalize (running.map _).any _ = expired at hexpired ⊢
  have hphase' : (r.withTimedOut expired).released.core.phase = .spawned := hphase
  rcases conclude_cases hphase' (timer.start start) status ending with ⟨_, hc⟩ | ⟨_, hsome, _⟩
  · have hdecided : ((r.withTimedOut expired).released.settled ending.captured).timedOut = true ↔
        ∃ limit ∈ timer.limit, ∃ poll ∈ running, start + limit ≤ poll.read := by
      rw [timedOut_settled]
      exact hexpired
    rw [hc]
    refine ⟨_, _, rfl, hdecided, ?_, ?_⟩
    · intro delay hdelay htimed
      obtain ⟨limit, hlimit, poll, hmem, hread⟩ := hdecided.mp htimed
      have hasked := (hrunning poll hmem).2
      have hwithin := hdelay poll hmem
      exact ⟨limit, hlimit, Nat.lt_of_le_of_lt (Nat.le_trans hread hwithin) (Nat.add_lt_add_right hasked _)⟩
    · intro gap hclose limit hlimit hexit
      rcases reading_of_close hclose hlast with hfirst | ⟨poll, hmem, hread⟩
      · -- no limit is shorter than nothing
        have hshort : start + gap ≤ start + limit + gap := Nat.add_le_add_right (Nat.le_add_right _ _) gap
        exact absurd (Nat.lt_of_lt_of_le hexit hfirst) (Nat.not_lt.mpr hshort)
      · have hpast : start + limit + gap ≤ poll.read + gap :=
          Nat.le_of_lt (Nat.lt_of_lt_of_le hexit hread)
        exact hdecided.mpr ⟨limit, hlimit, poll, hmem, Nat.le_of_add_le_add_right hpast⟩
  · exact absurd (hcode.symm.trans hsome) (Option.some_ne_none _).symm

/-- **A deadline that nobody sees.** The limit is a tenth of a second and the child runs for three tenths, but
    the second poll comes after six: `r'.timedOut = false`. -/
theorem unseen_deadline :
    let job : Job := { tester := Tester.plan { name := "late", command := .ofProgram [] } }
    let options : Options := { runner := { pollIntervalMs := 600 } }
    let start := 0
    let limit := Duration.millis 100
    let exit := Duration.millis 300
    let started := (ofJob job options).spawn { limit := some limit } (.started 7) start
    let polls : List Poll := [{ asked := 10, read := 20 },
      { asked := 20 + options.runner.pollInterval, read := 20 + options.runner.pollInterval }]
    start + limit ≤ exit ∧
    ∃ r' timer', started.1.wait started.2.1 (polls.map (Poll.look exit (.exited 0) started.2.1))
        { captured := { data := [] }, files := fun _ => none, now := 700000 }
      = some (r', timer', .ok ()) ∧ r'.timedOut = false :=
  ⟨by decide, _, _, rfl, rfl⟩

/-- A child that runs past its limit of `500` and is found running at `520`. -/
theorem wait_deadline_passed :
    ∃ r' timer', LocalRunner.wait
        { core := { job := { tester := Tester.plan { name := "t", command := .ofProgram [] } }
                    phase := .spawned }
          child := some 7, capturing := true, killed := true }
        { limit := some 500, started := some 0 }
        ([{ asked := 10, read := 20 }, { asked := 520, read := 530 }, { asked := 1030, read := 0 }].map
          (Poll.look 900 (.signalled 15) { limit := some 500, started := some 0 }))
        { captured := { data := [] }, files := fun _ => none, now := 1040 }
          = some (r', timer', .ok ()) ∧
      r'.timedOut = true := by
  obtain ⟨r', timer', hwait, hdecided, _⟩ := @wait_deadline
    (ofJob { tester := Tester.plan { name := "t", command := .ofProgram [] } } {}) _ { limit := some 500 }
    (.started 7) 0 [.kill] rfl rfl rfl rfl rfl 900
    [{ asked := 10, read := 20 }, { asked := 520, read := 530 }] { asked := 1030, read := 0 }
    (by decide) (by decide) (.signalled 15)
    { captured := { data := [] }, files := fun _ => none, now := 1040 }
  exact ⟨r', timer', hwait, hdecided.mpr ⟨500, rfl, { asked := 520, read := 530 }, by decide, by decide⟩⟩

end LocalRunner

end TestHarness
