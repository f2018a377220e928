import Mathlib.Data.List.Basic
import TestHarness.Timer

/-!
# The laws of a timer

A timer is started and stopped any number of times, in any order, and between the calls it is asked how
much time has passed, how much is left and whether it has expired. All three answers follow from one
number, the elapsed time, which is the distance between two readings of the clock: that of the start, and
that up to which the timer counts (`Timer.upTo`). As long as the clock does not go back, the second is
never before the first (`Timely`).

Between two starts there are only stops. The first of them freezes the timer and the others do nothing, so
the elapsed time can grow up to the first stop and not after it (`elapsed_run_mono`, `run_stop`).
-/

namespace TestHarness

namespace Timer

/-! ## One call -/

@[simp] theorem limit_start (t : Timer) (now : Duration) : (t.start now).limit = t.limit := rfl

@[simp] theorem limit_stop (t : Timer) (now : Duration) : (t.stop now).limit = t.limit := by
  unfold stop; split <;> rfl

@[simp] theorem started_stop (t : Timer) (now : Duration) : (t.stop now).started = t.started := by
  unfold stop; split <;> rfl

theorem isRunning_stop (t : Timer) (now : Duration) : (t.stop now).isRunning = false := by
  unfold stop
  by_cases h : t.isRunning = true
  · rw [if_pos h]
    show (_ && (some now).isNone) = false
    rw [Option.isNone_some, Bool.and_false]
  · rw [if_neg h]
    exact Bool.not_eq_true _ ▸ h

theorem isRunning_eq_false_iff (t : Timer) : t.isRunning = false ↔ t.started = none ∨ t.stopped ≠ none := by
  rw [isRunning, Bool.and_eq_false_iff, Option.isSome_eq_false_iff, Option.isNone_iff_eq_none,
    Option.isNone_eq_false_iff, Option.isSome_iff_ne_none]

/-- Only a running timer can be stopped: else `t.stop now = t`. -/
theorem stop_eq_self {t : Timer} (h : t.isRunning = false) (now : Duration) : t.stop now = t := by
  unfold stop
  rw [h]
  rfl

/-- The reading up to which the timer counts when the clock shows `now`. -/
def upTo (t : Timer) (now : Duration) : Duration := t.stopped.getD now

theorem elapsed_of_started {t : Timer} {started : Duration} (h : t.started = some started)
    (now : Duration) : t.elapsed now = t.upTo now - started := by
  unfold elapsed
  rw [h]
  rfl

theorem elapsed_of_not_started {t : Timer} (h : t.started = none) (now : Duration) :
    t.elapsed now = 0 := by
  unfold elapsed
  rw [h]

/-- **A stop freezes the elapsed time** at `reading`. -/
theorem elapsed_stop (t : Timer) (reading now : Duration) :
    (t.stop reading).elapsed now = t.elapsed reading := by
  cases hstarted : t.started with
  | none =>
      have hstop : (t.stop reading).started = none := by rw [started_stop, hstarted]
      rw [elapsed_of_not_started hstop, elapsed_of_not_started hstarted]
  | some started =>
      have hstop : (t.stop reading).started = some started := by rw [started_stop, hstarted]
      have hupTo : (t.stop reading).upTo now = t.upTo reading := by
        unfold stop isRunning upTo
        rw [hstarted]
        cases hstopped : t.stopped with
        | none => rfl
        | some stopped => simp [hstopped]
      rw [elapsed_of_started hstop, elapsed_of_started hstarted, hupTo]

theorem upTo_mono (t : Timer) {now later : Duration} (h : now ≤ later) : t.upTo now ≤ t.upTo later := by
  unfold upTo
  cases t.stopped with
  | none => exact h
  | some stopped => exact Nat.le_refl stopped

theorem elapsed_mono (t : Timer) {now later : Duration} (h : now ≤ later) :
    t.elapsed now ≤ t.elapsed later := by
  cases hstarted : t.started with
  | none => rw [elapsed_of_not_started hstarted]; exact Nat.zero_le _
  | some started =>
      rw [elapsed_of_started hstarted, elapsed_of_started hstarted]
      exact Nat.sub_le_sub_right (t.upTo_mono h) started

/-! ## What the elapsed time decides -/

theorem remaining_eq_some_iff {t : Timer} {now left : Duration} :
    t.remaining now = some left ↔ ∃ limit ∈ t.limit, limit - t.elapsed now = left := by
  unfold remaining
  rw [Option.map_eq_some_iff]
  rfl

theorem isExpired_iff {t : Timer} {now : Duration} :
    t.isExpired now = true ↔ ∃ limit ∈ t.limit, t.started.isSome = true ∧ limit ≤ t.elapsed now := by
  unfold isExpired
  cases t.limit with
  | none => exact iff_of_false nofun nofun
  | some limit => simp

/-- **Elapsed and remaining time** add up to `limit`, or to the elapsed time once that is longer. -/
theorem elapsed_add_remaining {t : Timer} {limit : Duration} (hlimit : t.limit = some limit)
    (now : Duration) :
    ∃ left, t.remaining now = some left ∧ t.elapsed now + left = max limit (t.elapsed now) := by
  refine ⟨limit - t.elapsed now, remaining_eq_some_iff.mpr ⟨limit, hlimit, rfl⟩, ?_⟩
  rw [Nat.add_comm, Nat.sub_add_eq_max]

/-- **Expired** is a started timer with a limit and nothing left of it, `t.remaining now = some 0`. -/
theorem isExpired_iff_remaining {t : Timer} {now : Duration} :
    t.isExpired now = true ↔ t.started.isSome = true ∧ t.remaining now = some 0 := by
  simp only [isExpired_iff, remaining_eq_some_iff, Nat.sub_eq_zero_iff_le]
  constructor
  · rintro ⟨limit, hlimit, hstarted, hle⟩
    exact ⟨hstarted, limit, hlimit, hle⟩
  · rintro ⟨hstarted, limit, hlimit, hle⟩
    exact ⟨limit, hlimit, hstarted, hle⟩

/-- Stopped, or asked, before its `limit` a timer is not expired. -/
theorem isExpired_of_lt {t : Timer} {now : Duration} (h : ∀ limit ∈ t.limit, t.elapsed now < limit) :
    t.isExpired now = false := by
  rw [← Bool.not_eq_true, isExpired_iff]
  rintro ⟨limit, hlimit, _, hle⟩
  exact absurd hle (Nat.not_le.mpr (h limit hlimit))

theorem isExpired_of_not_started {t : Timer} (h : t.started = none) (now : Duration) :
    t.isExpired now = false := by
  rw [← Bool.not_eq_true, isExpired_iff, h]
  rintro ⟨_, _, hstarted, _⟩
  cases hstarted

theorem isExpired_of_no_limit {t : Timer} (h : t.limit = none) (now : Duration) :
    t.isExpired now = false := by
  refine isExpired_of_lt fun limit hlimit => ?_
  rw [h] at hlimit
  cases hlimit

theorem isRunning_of_not_started {t : Timer} (h : t.started = none) : t.isRunning = false :=
  t.isRunning_eq_false_iff.mpr (Or.inl h)

section SameLimit

/-! Two timers with one limit, which may be one timer before and after some calls. -/

variable {t u : Timer} {now later : Duration} (hlimit : u.limit = t.limit)
include hlimit

theorem remaining_congr (helapsed : u.elapsed later = t.elapsed now) :
    u.remaining later = t.remaining now := by
  unfold remaining
  rw [hlimit, helapsed]

theorem isExpired_congr (hstarted : u.started = t.started)
    (helapsed : u.elapsed later = t.elapsed now) : u.isExpired later = t.isExpired now := by
  unfold isExpired
  rw [hlimit, hstarted, helapsed]

/-- As `elapsed` goes up, `remaining` goes down. -/
theorem remaining_le (helapsed : t.elapsed now ≤ u.elapsed later) {left : Duration}
    (hleft : t.remaining now = some left) : ∃ left', u.remaining later = some left' ∧ left' ≤ left := by
  obtain ⟨limit, hmem, rfl⟩ := remaining_eq_some_iff.mp hleft
  exact ⟨limit - u.elapsed later, remaining_eq_some_iff.mpr ⟨limit, hlimit.trans hmem, rfl⟩,
    Nat.sub_le_sub_left helapsed limit⟩

/-- As `elapsed` goes up, an expired timer stays expired. -/
theorem isExpired_of_le (hstarted : u.started = t.started)
    (helapsed : t.elapsed now ≤ u.elapsed later) (hexpired : t.isExpired now = true) :
    u.isExpired later = true := by
  obtain ⟨limit, hmem, hbegun, hle⟩ := isExpired_iff.mp hexpired
  exact isExpired_iff.mpr ⟨limit, hlimit.trans hmem, hstarted ▸ hbegun, Nat.le_trans hle helapsed⟩

end SameLimit

/-- **A started timer** is expired once its limit has passed, `start + limit ≤ now`. -/
theorem isExpired_start (timer : Timer) {start now : Duration} (hnow : start ≤ now) :
    (timer.start start).isExpired now = true ↔ ∃ limit ∈ timer.limit, start + limit ≤ now := by
  unfold isExpired Timer.start
  cases timer.limit with
  | none => exact iff_of_false nofun nofun
  | some limit =>
      show (true && decide (limit ≤ now - start)) = true ↔ _
      rw [Bool.true_and, decide_eq_true_iff, Nat.le_sub_iff_add_le' hnow]
      simp only [Option.mem_def, Option.some.injEq, exists_eq_left']

/-! ## A clock that does not go back -/

/-- **`Timely`** — when the clock shows `now`, the timer does not count up to a later reading, nor up to one
    before its start. -/
structure Timely (t : Timer) (now : Duration) : Prop where
  past : t.upTo now ≤ now
  begun : ∀ started ∈ t.started, started ≤ t.upTo now

theorem Timely.later {t : Timer} {now later : Duration} (h : t.Timely now) (hle : now ≤ later) :
    t.Timely later := by
  refine ⟨?_, fun started hstarted => Nat.le_trans (h.begun started hstarted) (t.upTo_mono hle)⟩
  have hpast := h.past
  unfold upTo at hpast ⊢
  cases hstopped : t.stopped with
  | none => exact Nat.le_refl later
  | some stopped =>
      rw [hstopped] at hpast
      exact Nat.le_trans hpast hle

/-- The elapsed time is the whole distance between `started` and `t.upTo now`: nothing is cut off at zero. -/
theorem Timely.started_add_elapsed {t : Timer} {now : Duration} (h : t.Timely now) {started : Duration}
    (hstarted : t.started = some started) : started + t.elapsed now = t.upTo now := by
  rw [elapsed_of_started hstarted]
  exact Nat.add_sub_of_le (h.begun started hstarted)

theorem timely_start (t : Timer) (now : Duration) : (t.start now).Timely now := by
  refine ⟨Nat.le_refl now, ?_⟩
  intro started hstarted
  exact Nat.le_of_eq (Option.some.inj hstarted).symm

theorem Timely.stop {t : Timer} {now : Duration} (h : t.Timely now) : (t.stop now).Timely now := by
  cases hrunning : t.isRunning with
  | false => rw [stop_eq_self hrunning]; exact h
  | true =>
      have hstop : (t.stop now).upTo now = now := by
        unfold Timer.stop
        rw [if_pos hrunning]
        rfl
      refine ⟨Nat.le_of_eq hstop, ?_⟩
      intro started hstarted
      rw [started_stop] at hstarted
      rw [hstop]
      exact Nat.le_trans (h.begun started hstarted) h.past

end Timer

namespace DatedTimer

open Timer

/-! ## Many calls -/

/-- A call of a `DatedTimer`, with what the clock and the calendar show. -/
inductive Call where
  | start (now : Duration) (date : Date)
  | stop (now : Duration)

/-- What the clock shows at a `Call`. -/
def Call.now : Call → Duration
  | start now _ => now
  | stop now => now

def Call.isStart : Call → Bool
  | start .. => true
  | stop _ => false

/-- The timer after one `Call`. -/
def perform (t : DatedTimer) : Call → DatedTimer
  | .start now date => t.start now date
  | .stop now => t.stop now

/-- The timer after `calls` made one after the other. -/
def run (t : DatedTimer) (calls : List Call) : DatedTimer := calls.foldl perform t

theorem run_cons (t : DatedTimer) (call : Call) (calls : List Call) :
    t.run (call :: calls) = (t.perform call).run calls := rfl

@[simp] theorem limit_perform (t : DatedTimer) (call : Call) : (t.perform call).limit = t.limit := by
  cases call with
  | start now date => exact t.limit_start now
  | stop now => exact t.limit_stop now

@[simp] theorem limit_run (t : DatedTimer) (calls : List Call) : (t.run calls).limit = t.limit := by
  induction calls generalizing t with
  | nil => rfl
  | cons call calls ih => rw [run_cons, ih, limit_perform]

/-- `started` and `startedAt` come with the first start and are never taken back. -/
theorem isSome_run (t : DatedTimer) (calls : List Call) :
    (t.run calls).started.isSome = (t.started.isSome || calls.any Call.isStart) ∧
    (t.run calls).startedAt.isSome = (t.startedAt.isSome || calls.any Call.isStart) := by
  induction calls generalizing t with
  | nil => simp [run]
  | cons call calls ih =>
      obtain ⟨hstarted, hdate⟩ := ih (t.perform call)
      rw [run_cons, List.any_cons, hstarted, hdate]
      cases call with
      | start now date => simp [perform, DatedTimer.start, Timer.start, Call.isStart]
      | stop now => simp [perform, DatedTimer.stop, Call.isStart]

/-- **`Timely` at every call.** -/
theorem timely_perform {t : DatedTimer} {now : Duration} (h : t.Timely now) {call : Call}
    (hnow : now ≤ call.now) : (t.perform call).Timely call.now := by
  cases call with
  | start now date => exact timely_start t.toTimer now
  | stop now => exact (h.later hnow).stop

/-- **`Timely` after all calls**, if the readings never go back. -/
theorem timely_run {t : DatedTimer} {now later : Duration} (h : t.Timely now) {calls : List Call}
    (hclock : (now :: (calls.map Call.now ++ [later])).Pairwise (· ≤ ·)) :
    (t.run calls).Timely later := by
  -- by induction on the calls, each of which is the latest reading for the next one
  induction calls generalizing t now with
  | nil =>
      rw [List.pairwise_cons] at hclock
      exact h.later (hclock.1 later List.mem_cons_self)
  | cons call calls ih =>
      rw [List.pairwise_cons] at hclock
      exact ih (timely_perform h (hclock.1 call.now List.mem_cons_self)) hclock.2

/-! ## Between two starts -/

/-- A timer that does not run, `t.isRunning = false`, is changed by no stop. -/
theorem run_of_not_running {t : DatedTimer} (h : t.isRunning = false) {calls : List Call}
    (hstops : ∀ call ∈ calls, call.isStart = false) : t.run calls = t := by
  induction calls with
  | nil => rfl
  | cons call calls ih =>
      rw [List.forall_mem_cons] at hstops
      cases call with
      | start now date => cases hstops.1
      | stop now =>
          have hsame : t.perform (.stop now) = t := by
            show ({ t with toTimer := t.toTimer.stop now } : DatedTimer) = t
            rw [stop_eq_self h]
          rw [run_cons, hsame]
          exact ih hstops.2

/-- **Stopped once, stopped for good**: the stops that follow `t.stop reading` change nothing. -/
theorem run_stop (t : DatedTimer) (reading : Duration) {calls : List Call}
    (hstops : ∀ call ∈ calls, call.isStart = false) : (t.stop reading).run calls = t.stop reading :=
  run_of_not_running (t.isRunning_stop reading) hstops

theorem started_run {t : DatedTimer} {calls : List Call}
    (hstops : ∀ call ∈ calls, call.isStart = false) : (t.run calls).started = t.started := by
  induction calls generalizing t with
  | nil => rfl
  | cons call calls ih =>
      rw [List.forall_mem_cons] at hstops
      cases call with
      | start now date => cases hstops.1
      | stop now =>
          rw [run_cons, ih hstops.2]
          exact t.started_stop now

/-- **The elapsed time never goes back** between two starts: `t.elapsed now ≤ (t.run calls).elapsed later`. -/
theorem elapsed_run_mono {t : DatedTimer} {now later : Duration} {calls : List Call}
    (hstops : ∀ call ∈ calls, call.isStart = false)
    (hclock : (now :: (calls.map Call.now ++ [later])).Pairwise (· ≤ ·)) :
    t.elapsed now ≤ (t.run calls).elapsed later := by
  induction calls generalizing t now with
  | nil =>
      rw [List.pairwise_cons] at hclock
      exact t.elapsed_mono (hclock.1 later List.mem_cons_self)
  | cons call calls ih =>
      rw [List.forall_mem_cons] at hstops
      rw [List.pairwise_cons] at hclock
      cases call with
      | start reading date => cases hstops.1
      | stop reading =>
          have hreading : now ≤ reading := hclock.1 reading List.mem_cons_self
          calc t.elapsed now
            _ ≤ t.elapsed reading := t.elapsed_mono hreading
            _ = (t.stop reading).elapsed reading := (t.elapsed_stop reading reading).symm
            _ ≤ ((t.stop reading).run calls).elapsed later := ih hstops.2 hclock.2

/-! ## A new timer -/

section New

variable {limit : Option Duration} {calls : List Call}

theorem started_iff :
    (run { limit } calls).started.isSome = true ↔ ∃ call ∈ calls, call.isStart = true := by
  rw [(isSome_run _ calls).1]
  exact List.any_eq_true

theorem startedAt_iff :
    (run { limit } calls).startedAt.isSome = true ↔ ∃ call ∈ calls, call.isStart = true := by
  rw [(isSome_run _ calls).2]
  exact List.any_eq_true

theorem not_started_of_stops (hstops : ∀ call ∈ calls, call.isStart = false) :
    (run { limit } calls).started = none := by
  rw [← Option.not_isSome_iff_eq_none, started_iff]
  rintro ⟨call, hmem, hcall⟩
  rw [hstops call hmem] at hcall
  cases hcall

/-- A new timer has no reading that could lie in the future, so it is `Timely` after any calls. -/
theorem timely_run_new {now : Duration} (hclock : (calls.map Call.now ++ [now]).Pairwise (· ≤ ·)) :
    (run { limit } calls).Timely now := by
  have hnew : Timer.Timely { limit } 0 := ⟨Nat.le_refl 0, nofun⟩
  exact timely_run hnew (List.pairwise_cons.mpr ⟨fun _ _ => Nat.zero_le _, hclock⟩)

end New

/-- **From a stop on** the answers are those of the moment of the stop, `reading`. -/
theorem answers_after_stop (t : DatedTimer) (reading now : Duration) {calls : List Call}
    (hstops : ∀ call ∈ calls, call.isStart = false) :
    ((t.stop reading).run calls).elapsed now = t.elapsed reading ∧
    ((t.stop reading).run calls).remaining now = t.remaining reading ∧
    ((t.stop reading).run calls).isExpired now = t.isExpired reading := by
  rw [run_stop t reading hstops]
  have hfrozen : (t.stop reading).elapsed now = t.elapsed reading := t.elapsed_stop reading now
  exact ⟨hfrozen, remaining_congr (t.limit_stop reading) hfrozen,
    isExpired_congr (t.limit_stop reading) (t.started_stop reading) hfrozen⟩

/-- A stop before any start changes nothing: `t.stop reading = t`. -/
theorem stop_of_not_started {t : DatedTimer} (h : t.started = none) (reading : Duration) :
    t.stop reading = t := by
  show ({ t with toTimer := t.toTimer.stop reading } : DatedTimer) = t
  rw [stop_eq_self (isRunning_of_not_started h)]

/-! ## The laws -/

/-- **The laws of a timer.** Let a timer be new, take any calls on it, and ask it then, when the clock shows
    `now`; let only stops follow, and ask it again, when the clock shows `later`. The clock never goes back.

    The date of the start is set if there has been a start. The timer is expired if it has a limit, has been
    started and has nothing left. With a limit, elapsed and remaining time add up to the limit, or to the
    elapsed time if that is longer, and the elapsed time is no difference that was cut off at zero.

    Up to the next start the elapsed time never goes back, the remaining time never goes up, and an expired
    timer stays expired. From a stop on the three answers are those of the moment of the stop, so that a
    timer that was stopped before its limit is not expired later on. A stop before any start changes nothing,
    and a timer without a limit or without a start is never expired. -/
theorem timer_laws (limit : Option Duration) {before after : List Call} {now later : Duration}
    (hclock : (before.map Call.now ++ now :: (after.map Call.now ++ [later])).Pairwise (· ≤ ·))
    (hstops : ∀ call ∈ after, call.isStart = false) :
    let t : DatedTimer := run { limit } before
    let u : DatedTimer := t.run after
    (t.startedAt.isSome = true ↔ ∃ call ∈ before, call.isStart = true) ∧
    (t.isExpired now = true ↔
      (∃ l, limit = some l) ∧ (∃ call ∈ before, call.isStart = true) ∧ t.remaining now = some 0) ∧
    (∀ l, limit = some l →
      ∃ left, t.remaining now = some left ∧ t.elapsed now + left = max l (t.elapsed now)) ∧
    (∀ started, t.started = some started → started + t.elapsed now = t.stopped.getD now) ∧
    t.elapsed now ≤ u.elapsed later ∧
    (∀ left, t.remaining now = some left → ∃ left', u.remaining later = some left' ∧ left' ≤ left) ∧
    (t.isExpired now = true → u.isExpired later = true) ∧
    (∀ reading any,
      ((t.stop reading).run after).elapsed any = t.elapsed reading ∧
      ((t.stop reading).run after).remaining any = t.remaining reading ∧
      ((t.stop reading).run after).isExpired any = t.isExpired reading ∧
      ((∀ l, limit = some l → t.elapsed reading < l) →
        ((t.stop reading).run after).isExpired any = false)) ∧
    ((∀ call ∈ before, call.isStart = false) → ∀ reading, t.stop reading = t) ∧
    (limit = none ∨ (∀ call ∈ before, call.isStart = false) → ∀ any, t.isExpired any = false) := by
  intro t u
  have hlimit : t.limit = limit := limit_run _ before
  have hsame : u.limit = t.limit := limit_run t after
  have htimely : t.Timely now := by
    -- the readings of the calls and of the first look are a part of all readings
    have hpart : (before.map Call.now ++ [now]).Sublist
        (before.map Call.now ++ now :: (after.map Call.now ++ [later])) :=
      List.Sublist.append_left (List.singleton_sublist.mpr List.mem_cons_self) _
    exact timely_run_new (hclock.sublist hpart)
  have hgrows : t.elapsed now ≤ u.elapsed later :=
    elapsed_run_mono hstops (List.pairwise_append.mp hclock).2.1
  refine ⟨startedAt_iff, ?_, ?_, ?_, hgrows, ?_, ?_, ?_, ?_, ?_⟩
  · rw [isExpired_iff_remaining, started_iff]
    constructor
    · rintro ⟨hcall, hleft⟩
      obtain ⟨l, hl, _⟩ := remaining_eq_some_iff.mp hleft
      exact ⟨⟨l, hlimit ▸ hl⟩, hcall, hleft⟩
    · rintro ⟨_, hcall, hleft⟩
      exact ⟨hcall, hleft⟩
  · rintro l rfl
    exact elapsed_add_remaining hlimit now
  · intro started hbegun
    exact htimely.started_add_elapsed hbegun
  · intro left hleft
    exact remaining_le hsame hgrows hleft
  · intro hexpired
    exact isExpired_of_le hsame (started_run hstops) hgrows hexpired
  · intro reading any
    obtain ⟨helapsed, hremaining, hexpired⟩ := t.answers_after_stop reading any hstops
    refine ⟨helapsed, hremaining, hexpired, ?_⟩
    intro hearly
    rw [hexpired]
    exact isExpired_of_lt fun l hl => hearly l (hlimit ▸ hl)
  · intro hnone reading
    exact stop_of_not_started (not_started_of_stops hnone) reading
  · rintro (hnone | hnone) any
    · exact isExpired_of_no_limit (hlimit.trans hnone) any
    · exact isExpired_of_not_started (not_started_of_stops hnone) any

/-- The limit counts from the second start, at `5`, and both stops after it come too late. -/
theorem timer_laws_of_restart :
    let before : List Call := [.stop 1, .start 2 100, .stop 4, .start 5 90]
    let t : DatedTimer := run { limit := some 3 } before
    t.elapsed 7 = 2 ∧ t.isExpired 7 = false ∧ t.isExpired 9 = true ∧ t.remaining 9 = some 0 ∧
    (t.run [.stop 11, .stop 12]).elapsed 20 = 6 ∧
    (t.run [.stop 11, .stop 12]).isExpired 20 = true ∧
    ∃ left, t.remaining 9 = some left ∧ t.elapsed 9 + left = max 3 (t.elapsed 9) := by
  intro before t
  have laws := @timer_laws (some 3) before [.stop 11, .stop 12] 9 20 (by decide) (by decide)
  obtain ⟨_, _, hsum, _, _, _, hstays, _⟩ := laws
  have hexpired : t.isExpired 9 = true := by decide
  exact ⟨by decide, by decide, hexpired, by decide, by decide, hstays hexpired, hsum 3 rfl⟩

end DatedTimer

end TestHarness
