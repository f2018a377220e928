import Mathlib.Logic.Function.Basic
import TestHarness.Proofs.Interleaving.Worker

/-!
# Signals from other threads

One worker starts a local runner's child and waits for it, and any number of calls of other threads kill
the child or send it signals. Every interleaving of their steps is a run.

A process that has been reaped is never signalled (`signalled_before_reaped`), since the look that sees
the child's end lets it go under the same hold of the lock. `signals_from_outside` says this together with
what the calls answer and what they leave alone.
-/

namespace TestHarness

/-- A call of another thread: `kill`, or `send` of a signal. -/
inductive OutsideCall where
  | kill
  | send (signal : Signal)
deriving DecidableEq

/-- How far such a call has come: `pending`, `checked` or `answered`. -/
inductive Progress where
  | pending
  /-- The phase is checked by `ensureSpawned`, and the child's lock is still to be taken. -/
  | checked
  | answered (answer : Except RunnerError Unit)

/-- A local runner in the hands of its `Worker`, with the calls of other threads. -/
structure Signalled (κ : Type) extends Worker where
  outside : κ → Progress

/-- What happens in one `Step`. -/
inductive Event (κ : Type) where
  | worker (happening : Happening)
  /-- A `kill`, with the child that it finds and the signal that it delivers. -/
  | killed (k : κ) (child : Option Nat) (signal : Option Signal)
  /-- The phase that a signal's check, `ensureSpawned`, finds. -/
  | checked (k : κ) (phase : Phase)
  /-- The child that a signal finds when it takes the lock (`signalTarget`), and is delivered to. -/
  | aimed (k : κ) (child : Option Nat)

namespace Event

variable {κ : Type}

/-- The call `k` that takes the step, unless the worker does. -/
def caller? : Event κ → Option κ
  | .worker _ => none
  | .killed k _ _ => some k
  | .checked k _ => some k
  | .aimed k _ => some k

/-- A signal is delivered in the step: by the deadline (`looked`), by a kill (`killed`) or by a signal call
    (`aimed`). -/
def Delivers : Event κ → Prop
  | .worker (.looked _ (some _) _) => True
  | .killed _ _ (some _) => True
  | .aimed _ (some _) => True
  | _ => False

/-- The child that the step finds; `none` too if it does not look for one. -/
def child? : Event κ → Option Nat
  | .worker (.looked child _ _) => child
  | .killed _ child _ => child
  | .aimed _ child => child
  | _ => none

/-- The step sees the child's end: a look with the verdict `.ended`. -/
def Reaps : Event κ → Prop
  | .worker (.looked _ _ (.ended _)) => True
  | _ => False

end Event

namespace Signalled

variable {κ : Type}

/-- A runner that no one has called yet: its worker is `idle`, and every call from outside is `pending`. -/
def start (job : Job) (options : Options) (timer : Timer) : Signalled κ :=
  { runner := .ofJob job options, timer, point := .idle none, outside := fun _ => .pending }

variable [DecidableEq κ]

/-- The state in which call `k` has come further. -/
def advance (s : Signalled κ) (k : κ) (progress : Progress) : Signalled κ :=
  { s with outside := Function.update s.outside k progress }

@[simp] theorem outside_advance_self (s : Signalled κ) (k : κ) (progress : Progress) :
    (s.advance k progress).outside k = progress := by
  show Function.update s.outside k progress k = progress
  exact Function.update_self k progress s.outside

theorem outside_advance_ne (s : Signalled κ) {j k : κ} (h : j ≠ k) (progress : Progress) :
    (s.advance k progress).outside j = s.outside j := by
  show Function.update s.outside k progress j = s.outside j
  exact Function.update_of_ne h progress s.outside

/-- **`Step`** — one step of the worker or of a call from outside. What comes of a delivery is not
    determined. -/
inductive Step (calls : κ → OutsideCall) : Signalled κ → Event κ → Signalled κ → Prop where
  | worker {s : Signalled κ} {happening : Happening} {w : Worker} :
      Worker.Step s.toWorker happening w →
      Step calls s (.worker happening) { s with toWorker := w }
  | kill {s : Signalled κ} {k : κ} : calls k = .kill → s.outside k = .pending →
      Step calls s (.killed k s.runner.child s.runner.kill.2)
        ({ s with runner := s.runner.kill.1 }.advance k (.answered (.ok ())))
  | check {s : Signalled κ} {k : κ} {signal : Signal} :
      calls k = .send signal → s.outside k = .pending →
      s.runner.core.ensureSpawned "send_signal" = .ok () →
      Step calls s (.checked k s.runner.core.phase) (s.advance k .checked)
  | refuse {s : Signalled κ} {k : κ} {signal : Signal} {e : RunnerError} :
      calls k = .send signal → s.outside k = .pending →
      s.runner.core.ensureSpawned "send_signal" = .error e →
      Step calls s (.checked k s.runner.core.phase) (s.advance k (.answered (.error e)))
  | miss {s : Signalled κ} {k : κ} {signal : Signal} {e : RunnerError} :
      calls k = .send signal → s.outside k = .checked →
      s.runner.signalTarget signal = .error e →
      Step calls s (.aimed k s.runner.child) (s.advance k (.answered (.error e)))
  | deliver {s : Signalled κ} {k : κ} {signal : Signal} {pid : Nat} (delivery : Except String Unit) :
      calls k = .send signal → s.outside k = .checked →
      s.runner.signalTarget signal = .ok pid →
      Step calls s (.aimed k s.runner.child)
        (s.advance k (.answered (delivery.mapError (.signalFailed signal))))

/-- **A signal that is not interrupted** is the whole call `LocalRunner.sendSignal`. -/
theorem send_steps {calls : κ → OutsideCall} {s : Signalled κ} {k : κ} {signal : Signal}
    (hcall : calls k = .send signal) (hpending : s.outside k = .pending)
    (delivery : Except String Unit) :
    ∃ trace s', Run (Step calls) s trace s' ∧
      s'.outside k = .answered (s.runner.sendSignal signal delivery) := by
  unfold LocalRunner.sendSignal
  rcases s.runner.core.ensureSpawned_cases "send_signal" with ⟨_, h⟩ | ⟨_, h⟩
  · have hcheck : Run (Step calls) s [.checked k s.runner.core.phase] (s.advance k .checked) :=
      Run.nil.snoc (.check hcall hpending h)
    have hchecked : (s.advance k .checked).outside k = .checked := outside_advance_self s k _
    rw [h]
    cases htarget : s.runner.signalTarget signal with
    | error e =>
        exact ⟨_, _, hcheck.snoc (.miss hcall hchecked htarget), outside_advance_self _ k _⟩
    | ok pid =>
        refine ⟨_, _, hcheck.snoc (.deliver delivery hcall hchecked htarget), ?_⟩
        rw [outside_advance_self]
        cases delivery <;> rfl
  · rw [h]
    exact ⟨_, _, Run.nil.snoc (.refuse hcall hpending h), outside_advance_self s k _⟩

/-- **A call from outside changes nothing** but the flag `killed` and its own progress. -/
theorem Step.frame {calls : κ → OutsideCall} {s s' : Signalled κ} {e : Event κ}
    (h : Step calls s e s') (hcaller : e.caller? ≠ none) :
    s'.runner = { s.runner with killed := s'.runner.killed } ∧ s'.timer = s.timer ∧
      s'.point = s.point := by
  cases h with
  | worker _ => exact absurd rfl hcaller
  | kill _ _ =>
      refine ⟨?_, rfl, rfl⟩
      show s.runner.kill.1 = { s.runner with killed := s.runner.kill.1.killed }
      rcases s.runner.kill_cases with ⟨_, _, hk⟩ | ⟨_, hk⟩ <;> rw [hk]
  | check _ _ _ => exact ⟨rfl, rfl, rfl⟩
  | refuse _ _ _ => exact ⟨rfl, rfl, rfl⟩
  | miss _ _ _ => exact ⟨rfl, rfl, rfl⟩
  | deliver _ _ _ _ => exact ⟨rfl, rfl, rfl⟩

end Signalled

/-! ## The child -/

namespace Signalled

variable {κ : Type}

/-- **`Sound`** — the child's story. As long as the run is in phase `.created` no child was ever stored; a
    child that is held was stored, and none was reaped. -/
structure Sound (trace : List (Event κ)) (w : Worker) : Prop where
  start : w.point.IsStart → w.runner.core.phase = .created
  fresh : w.runner.core.phase = .created → w.point ≠ .holding → ∀ pid, .worker (.stored pid) ∉ trace
  reaped : ∀ e ∈ trace, e.Reaps → ∃ pid, .worker (.stored pid) ∈ trace
  held : ∀ pid, w.runner.child = some pid → .worker (.stored pid) ∈ trace ∧ ∀ e ∈ trace, ¬ e.Reaps

/-- A step that neither stores a child nor sees one's end (`Calm`) keeps `Sound`. -/
theorem Sound.calm {trace : List (Event κ)} {w w' : Worker} {e : Event κ} (h : Sound trace w)
    (hcalm : w.Calm w') (hstored : ∀ pid, e ≠ .worker (.stored pid)) (hreaps : ¬ e.Reaps) :
    Sound (trace ++ [e]) w' := by
  refine ⟨hcalm.start, ?_, ?_, ?_⟩
  · intro hphase hpoint pid hmem
    obtain ⟨hphase', hpoint'⟩ := hcalm.created hphase hpoint
    rcases List.mem_append.mp hmem with hold | hnew
    · exact h.fresh hphase' hpoint' pid hold
    · exact hstored pid (List.mem_singleton.mp hnew).symm
  · intro e' hmem he'
    rcases List.mem_append.mp hmem with hold | hnew
    · obtain ⟨pid, hpid⟩ := h.reaped e' hold he'
      exact ⟨pid, List.mem_append_left _ hpid⟩
    · rw [List.mem_singleton.mp hnew] at he'
      exact absurd he' hreaps
  · intro pid hchild
    obtain ⟨hpid, hnone⟩ := h.held pid (hcalm.child.symm.trans hchild)
    refine ⟨List.mem_append_left _ hpid, ?_⟩
    intro e' hmem
    rcases List.mem_append.mp hmem with hold | hnew
    · exact hnone e' hold
    · rw [List.mem_singleton.mp hnew]
      exact hreaps

/-- **Storing a child** happens at most once: the run is in phase `.created` then. -/
theorem Sound.stored {trace : List (Event κ)} {w : Worker} (h : Sound trace w)
    (hpoint : w.point = .starting) (pid : Nat) :
    Sound (trace ++ [.worker (.stored pid)])
      { w with runner := w.runner.hold pid, point := .holding } := by
  have hphase : w.runner.core.phase = .created := h.start (by rw [hpoint]; exact trivial)
  -- a look that saw an end would need an earlier child, and none was stored in the first phase
  have hnone : ∀ e ∈ trace ++ [.worker (.stored pid)], ¬ e.Reaps := by
    intro e hmem hreaps
    rcases List.mem_append.mp hmem with hold | hnew
    · obtain ⟨other, hother⟩ := h.reaped e hold hreaps
      exact h.fresh hphase (by rw [hpoint]; nofun) other hother
    · rw [List.mem_singleton.mp hnew] at hreaps
      exact hreaps
  refine ⟨fun _ => hphase, ?_, ?_, ?_⟩
  · intro _ hne
    exact absurd rfl hne
  · intro e hmem he
    exact absurd he (hnone e hmem)
  · intro pid' hchild
    cases hchild
    exact ⟨List.mem_append_right _ List.mem_cons_self, hnone⟩

/-- **A look** that sees the child's end lets the child go, and any other look changes no child; so `Looked`
    keeps `Sound`. -/
theorem Sound.looked {trace : List (Event κ)} {w w' : Worker} {child : Option Nat}
    {signal : Option Signal} {verdict : LocalRunner.Verdict} (h : Sound trace w)
    (hlook : w.Looked child signal verdict w') :
    Sound (trace ++ [.worker (.looked child signal verdict)]) w' := by
  have hcreated : w'.runner.core.phase = .created → w.runner.core.phase = .created := by
    rw [hlook.core]; exact id
  rcases hlook.outcome with ⟨hchild, hverdict⟩ | ⟨hheld, hgone⟩
  · have hcalm : w.Calm w' :=
      ⟨hchild, fun hphase _ => ⟨hcreated hphase, hlook.point⟩, fun hstart => absurd hstart hlook.start⟩
    refine h.calm hcalm nofun ?_
    cases verdict with
    | ended status => exact absurd rfl (hverdict status)
    | running => exact id
    | failed e => exact id
  · -- the child is let go in the step that sees its end
    obtain ⟨pid, hpid⟩ := Option.ne_none_iff_exists'.mp hheld
    obtain ⟨hstored, _⟩ := h.held pid hpid
    refine ⟨fun hstart => absurd hstart hlook.start, ?_, ?_, ?_⟩
    · intro hphase _ _ _
      exact absurd hstored (h.fresh (hcreated hphase) hlook.point pid)
    · intro _ _ _
      exact ⟨pid, List.mem_append_left _ hstored⟩
    · intro other hchild
      rw [hgone] at hchild
      cases hchild

variable [DecidableEq κ]

/-- **Every `Step` keeps the child's story**, `Sound`. -/
theorem Step.sound {calls : κ → OutsideCall} {s s' : Signalled κ} {e : Event κ}
    (h : Step calls s e s') {trace : List (Event κ)} (hs : Sound trace s.toWorker) :
    Sound (trace ++ [e]) s'.toWorker := by
  -- the outside calls change neither the child nor the worker's place
  have houtside : e.caller? ≠ none → (∀ pid, e ≠ .worker (.stored pid)) → ¬ e.Reaps →
      Sound (trace ++ [e]) s'.toWorker := by
    intro hcaller hstored hreaps
    obtain ⟨hrunner, _, hpoint⟩ := h.frame hcaller
    refine hs.calm ⟨by rw [hrunner], ?_, ?_⟩ hstored hreaps
    · intro hphase hne
      rw [hrunner] at hphase
      rw [hpoint] at hne
      exact ⟨hphase, hne⟩
    · intro hstart
      rw [hpoint] at hstart
      rw [hrunner]
      exact hs.start hstart
  cases h with
  | kill _ _ => exact houtside (Option.some_ne_none _) nofun id
  | check _ _ _ => exact houtside (Option.some_ne_none _) nofun id
  | refuse _ _ _ => exact houtside (Option.some_ne_none _) nofun id
  | miss _ _ _ => exact houtside (Option.some_ne_none _) nofun id
  | deliver _ _ _ _ => exact houtside (Option.some_ne_none _) nofun id
  | @worker happening w hstep =>
      cases happening with
      | quiet => exact hs.calm hstep.calm nofun id
      | looked child signal verdict => exact hs.looked hstep.looked
      | stored pid =>
          cases hstep with
          | store _ hpoint => exact hs.stored hpoint pid

/-- **A signal is delivered to the child that is held**, `s.runner.child = some pid`, and never without
    one. -/
theorem Step.delivers {calls : κ → OutsideCall} {s s' : Signalled κ} {e : Event κ}
    (h : Step calls s e s') (hdelivers : e.Delivers) :
    ∃ pid, e.child? = some pid ∧ s.runner.child = some pid := by
  -- only a kill, a delivery and a look that aims reach a child, and each finds it held
  cases h with
  | kill _ _ =>
      rcases s.runner.kill_cases with ⟨pid, hchild, _⟩ | ⟨_, hk⟩
      · exact ⟨pid, hchild, hchild⟩
      · rw [hk] at hdelivers
        exact hdelivers.elim
  | check _ _ _ => exact hdelivers.elim
  | refuse _ _ _ => exact hdelivers.elim
  | miss _ _ htarget =>
      rcases s.runner.signalTarget_cases _ with ⟨_, _, h⟩ | ⟨hchild, _⟩
      · rw [h] at htarget; cases htarget
      · rw [hchild] at hdelivers
        exact hdelivers.elim
  | deliver _ _ _ htarget =>
      rcases s.runner.signalTarget_cases _ with ⟨pid, hchild, _⟩ | ⟨_, h⟩
      · exact ⟨pid, hchild, hchild⟩
      · rw [h] at htarget; cases htarget
  | @worker happening w hstep =>
      cases happening with
      | quiet => exact hdelivers.elim
      | stored _ => exact hdelivers.elim
      | looked child signal verdict =>
          have hlook := hstep.looked
          cases signal with
          | none => exact hdelivers.elim
          | some signal =>
              have hheld : s.runner.child ≠ none := hlook.aimed (Option.some_ne_none signal)
              obtain ⟨pid, hpid⟩ := Option.ne_none_iff_exists'.mp hheld
              exact ⟨pid, hlook.found.trans hpid, hpid⟩

/-! ## The flag of the kills -/

/-- Some kill has found the child: there is a `killed` event with `some pid` in `trace`. -/
def SomeKill (trace : List (Event κ)) : Prop :=
  ∃ k pid signal, .killed k (some pid) signal ∈ trace

/-- **The flag `killed`** is set by a kill that finds the child (`SomeKill`), and by nothing else. -/
theorem Step.killed {calls : κ → OutsideCall} {s s' : Signalled κ} {e : Event κ}
    (h : Step calls s e s') {trace : List (Event κ)}
    (hs : s.runner.killed = true ↔ SomeKill trace) :
    s'.runner.killed = true ↔ SomeKill (trace ++ [e]) := by
  -- only a kill that finds a child touches the flag
  have hsame : s'.runner.killed = s.runner.killed →
      (∀ k pid signal, e ≠ .killed k (some pid) signal) →
      (s'.runner.killed = true ↔ SomeKill (trace ++ [e])) := by
    intro hkilled hne
    rw [hkilled, hs]
    constructor
    · rintro ⟨k, pid, signal, hmem⟩
      exact ⟨k, pid, signal, List.mem_append_left _ hmem⟩
    · rintro ⟨k, pid, signal, hmem⟩
      rcases List.mem_append.mp hmem with hold | hnew
      · exact ⟨k, pid, signal, hold⟩
      · exact absurd (List.mem_singleton.mp hnew).symm (hne k pid signal)
  cases h with
  | worker hstep => exact hsame hstep.killed nofun
  | check _ _ _ => exact hsame rfl nofun
  | refuse _ _ _ => exact hsame rfl nofun
  | miss _ _ _ => exact hsame rfl nofun
  | deliver _ _ _ _ => exact hsame rfl nofun
  | @kill k _ _ =>
      rcases s.runner.kill_cases with ⟨pid, hchild, hk⟩ | ⟨hchild, hk⟩ <;> rw [hchild] at hsame ⊢
      · have hset : s.runner.kill.1.killed = true := by rw [hk]
        exact iff_of_true hset ⟨k, pid, _, List.mem_append_right _ List.mem_cons_self⟩
      · have hkept : s.runner.kill.1.killed = s.runner.killed := by rw [hk]
        exact hsame hkept nofun

end Signalled

/-! ## What a call answers -/

namespace Signalled

variable {κ : Type}

/-- **`Account`** — how far a call has come by its steps, its `history`. -/
inductive Account (k : κ) : OutsideCall → List (Event κ) → Progress → Prop where
  | pending {call : OutsideCall} : Account k call [] .pending
  | killed {child : Option Nat} {signal : Option Signal} :
      Account k .kill [.killed k child signal] (.answered (.ok ()))
  | checked {signal : Signal} : Account k (.send signal) [.checked k .spawned] .checked
  | refused {signal : Signal} {phase : Phase} : phase ≠ .spawned →
      Account k (.send signal) [.checked k phase]
        (.answered (.error (.invalidState "send_signal" phase)))
  | missed {signal : Signal} :
      Account k (.send signal) [.checked k .spawned, .aimed k none]
        (.answered (.error (.signalFailed signal LocalRunner.alreadyExited)))
  | delivered {signal : Signal} {pid : Nat} {delivery : Except String Unit} :
      Account k (.send signal) [.checked k .spawned, .aimed k (some pid)]
        (.answered (delivery.mapError (.signalFailed signal)))

theorem Account.of_pending {k : κ} {call : OutsideCall} {steps : List (Event κ)}
    (h : Account k call steps .pending) : steps = [] := by
  cases h; rfl

theorem Account.of_checked {k : κ} {call : OutsideCall} {steps : List (Event κ)}
    (h : Account k call steps .checked) : steps = [.checked k .spawned] := by
  cases h; rfl

variable [DecidableEq κ]

/-- The steps of call `k`. -/
def history (k : κ) (trace : List (Event κ)) : List (Event κ) :=
  trace.filter fun e => e.caller? = some k

theorem history_snoc_self {k : κ} {e : Event κ} (h : e.caller? = some k) (trace : List (Event κ)) :
    history k (trace ++ [e]) = history k trace ++ [e] := by
  have hown : [e].filter (fun e => e.caller? = some k) = [e] :=
    List.filter_cons_of_pos (decide_eq_true h)
  unfold history
  rw [List.filter_append, hown]

theorem history_snoc_ne {k : κ} {e : Event κ} (h : e.caller? ≠ some k) (trace : List (Event κ)) :
    history k (trace ++ [e]) = history k trace := by
  have hother : [e].filter (fun e => e.caller? = some k) = [] :=
    List.filter_cons_of_neg (by rw [decide_eq_true_eq]; exact h)
  unfold history
  rw [List.filter_append, hother, List.append_nil]

/-- A `Step` leaves the progress of all calls but its own, `e.caller?`. -/
theorem Step.outside_ne {calls : κ → OutsideCall} {s s' : Signalled κ} {e : Event κ}
    (h : Step calls s e s') {k : κ} (hk : e.caller? ≠ some k) : s'.outside k = s.outside k := by
  have hne : ∀ {j : κ}, some j ≠ some k → k ≠ j := by
    intro j hj heq
    exact hj (heq ▸ rfl)
  cases h with
  | worker _ => rfl
  | kill _ _ => exact outside_advance_ne _ (hne hk) _
  | check _ _ _ => exact outside_advance_ne s (hne hk) _
  | refuse _ _ _ => exact outside_advance_ne s (hne hk) _
  | miss _ _ _ => exact outside_advance_ne s (hne hk) _
  | deliver _ _ _ _ => exact outside_advance_ne s (hne hk) _

/-- **Every `Step` keeps the `Account` of each call.** -/
theorem Step.account {calls : κ → OutsideCall} {s s' : Signalled κ} {e : Event κ}
    (h : Step calls s e s') {trace : List (Event κ)}
    (hs : ∀ k, Account k (calls k) (history k trace) (s.outside k)) (k : κ) :
    Account k (calls k) (history k (trace ++ [e])) (s'.outside k) := by
  by_cases hk : e.caller? = some k
  · rw [history_snoc_self hk]
    have hk' := hs k
    -- the call's progress before the step says which steps it has taken
    cases h with
    | worker _ => cases hk
    | kill hcall hpending =>
        cases hk
        rw [hpending] at hk'
        rw [outside_advance_self, hk'.of_pending, hcall]
        exact .killed
    | check hcall hpending hensure =>
        cases hk
        rw [hpending] at hk'
        have hphase : s.runner.core.phase = .spawned := by
          rcases s.runner.core.ensureSpawned_cases "send_signal" with ⟨hphase, _⟩ | ⟨_, h⟩
          · exact hphase
          · rw [h] at hensure; cases hensure
        rw [outside_advance_self, hk'.of_pending, hcall, hphase]
        exact .checked
    | refuse hcall hpending hensure =>
        cases hk
        rw [hpending] at hk'
        rw [outside_advance_self, hk'.of_pending, hcall]
        rcases s.runner.core.ensureSpawned_cases "send_signal" with ⟨_, h⟩ | ⟨hne, h⟩
        · rw [h] at hensure; cases hensure
        · rw [h] at hensure
          cases hensure
          exact .refused hne
    | miss hcall hchecked htarget =>
        cases hk
        rw [hchecked] at hk'
        rw [outside_advance_self, hk'.of_checked, hcall]
        rcases s.runner.signalTarget_cases _ with ⟨_, _, h⟩ | ⟨hchild, h⟩ <;> rw [h] at htarget
        · cases htarget
        · cases htarget
          rw [hchild]
          exact .missed
    | deliver delivery hcall hchecked htarget =>
        cases hk
        rw [hchecked] at hk'
        rw [outside_advance_self, hk'.of_checked, hcall]
        rcases s.runner.signalTarget_cases _ with ⟨pid, hchild, _⟩ | ⟨_, h⟩
        · rw [hchild]
          exact .delivered
        · rw [h] at htarget; cases htarget
  · rw [history_snoc_ne hk, h.outside_ne hk]
    exact hs k

/-! ## Whole runs -/

section Runs

variable {calls : κ → OutsideCall} {job : Job} {options : Options} {timer : Timer}
variable {trace : List (Event κ)} {s : Signalled κ}

theorem sound_of_run (h : Run (Step calls) (start job options timer) trace s) :
    Sound trace s.toWorker := by
  induction h with
  | nil =>
      -- nothing has happened, and there is no child
      refine ⟨fun h => h.elim, fun _ _ _ => List.not_mem_nil, ?_, ?_⟩
      · intro e hmem
        exact absurd hmem List.not_mem_nil
      · intro pid hchild
        cases hchild
  | snoc _ hstep ih => exact hstep.sound ih

theorem killed_iff (h : Run (Step calls) (start job options timer) trace s) :
    s.runner.killed = true ↔ SomeKill trace := by
  induction h with
  | nil => exact iff_of_false Bool.false_ne_true fun ⟨_, _, _, hmem⟩ => List.not_mem_nil hmem
  | snoc _ hstep ih => exact hstep.killed ih

theorem account_of_run (h : Run (Step calls) (start job options timer) trace s) (k : κ) :
    Account k (calls k) (history k trace) (s.outside k) := by
  induction h generalizing k with
  | nil => exact .pending
  | snoc _ hstep ih => exact hstep.account ih k

/-- **A reaped process is never signalled**, and no process before it is stored: each event that `Delivers`
    has a `stored` before it and no event that `Reaps`. -/
theorem signalled_before_reaped {before after : List (Event κ)} {e : Event κ}
    (h : Run (Step calls) (start job options timer) (before ++ e :: after) s) (hdelivers : e.Delivers) :
    ∃ pid, e.child? = some pid ∧ .worker (.stored pid) ∈ before ∧ ∀ e' ∈ before, ¬ e'.Reaps := by
  obtain ⟨s₁, s₂, hrun, hstep⟩ := h.cut
  obtain ⟨pid, hfound, hheld⟩ := hstep.delivers hdelivers
  obtain ⟨hstored, hnone⟩ := (sound_of_run hrun).held pid hheld
  exact ⟨pid, hfound, hstored, hnone⟩

/-- **Signals from outside.** One worker starts a child and waits for it any number of times, any number
    of calls from other threads kill it or send it signals, and their steps are interleaved in any way.

    Every signal, whether the deadline, a kill or a signal call delivers it, goes to a child that was
    stored before and that no look before has seen end. The flag of the kills is set if and only if a kill
    has found the child. A signal call that has answered has either found another phase than `spawned` and
    says so, or found that phase and then no child and says so, or found both, attempted one delivery and
    tells its outcome. And no such call changes the shared state, the timer or whether the deadline has
    passed. -/
theorem signals_from_outside (h : Run (Step calls) (start job options timer) trace s) :
    (∀ before e after, trace = before ++ e :: after → e.Delivers →
      ∃ pid, e.child? = some pid ∧ .worker (.stored pid) ∈ before ∧ ∀ e' ∈ before, ¬ e'.Reaps) ∧
    (s.runner.killed = true ↔ ∃ k pid signal, .killed k (some pid) signal ∈ trace) ∧
    (∀ k signal answer, calls k = .send signal → s.outside k = .answered answer →
      (∃ phase, phase ≠ .spawned ∧ history k trace = [.checked k phase] ∧
        answer = .error (.invalidState "send_signal" phase)) ∨
      (history k trace = [.checked k .spawned, .aimed k none] ∧
        answer = .error (.signalFailed signal "process has already exited")) ∨
      (∃ (pid : Nat) (delivery : Except String Unit),
        history k trace = [.checked k .spawned, .aimed k (some pid)] ∧
        answer = delivery.mapError (.signalFailed signal))) ∧
    (∀ e s', Step calls s e s' → e.caller? ≠ none →
      s'.runner.core = s.runner.core ∧ s'.timer = s.timer ∧
        s'.runner.timedOut = s.runner.timedOut) := by
  refine ⟨?_, killed_iff h, ?_, ?_⟩
  · intro before e after htrace hdelivers
    subst htrace
    exact signalled_before_reaped h hdelivers
  · -- the call's place accounts for its history, and an answered call has one of three
    intro k signal answer hcall hanswer
    have haccount := account_of_run h k
    rw [hcall, hanswer] at haccount
    generalize history k trace = steps at haccount
    cases haccount with
    | refused hphase => exact Or.inl ⟨_, hphase, rfl, rfl⟩
    | missed => exact Or.inr (Or.inl ⟨rfl, rfl⟩)
    | delivered => exact Or.inr (Or.inr ⟨_, _, rfl, rfl⟩)
  · intro e s' hstep hcaller
    obtain ⟨hrunner, htimer, _⟩ := hstep.frame hcaller
    rw [hrunner]
    exact ⟨rfl, htimer, rfl⟩

end Runs

/-- A signal whose check finds the run `.spawned`, and which takes the child's lock after a kill and after the
    look that sees the child's end: it finds no child. -/
theorem signals_from_outside_late :
    ∃ (before after : List (Event Bool)) (s : Signalled Bool),
      Run (Step fun k => bif k then .send .term else .kill)
        (start { tester := Tester.plan { name := "t", command := .ofProgram [] } } {} {})
        (before ++ .killed false (some 7) (some .kill) :: after) s ∧
      .worker (.stored 7) ∈ before ∧ s.runner.killed = true ∧
      s.outside true = .answered (.error (.signalFailed .term "process has already exited")) := by
  obtain ⟨before, after, s, hrun, hanswer⟩ :
      ∃ (before after : List (Event Bool)) (s : Signalled Bool),
        Run (Step fun k => bif k then .send .term else .kill)
          (start { tester := Tester.plan { name := "t", command := .ofProgram [] } } {} {})
          (before ++ .killed false (some 7) (some .kill) :: after) s ∧
        s.outside true = .answered (.error (.signalFailed .term "process has already exited")) := by
    refine ⟨[.worker .quiet, .worker (.stored 7), .worker .quiet, .worker .quiet, .checked true .spawned,
        .worker .quiet], [.worker (.looked (some 7) none (.ended (.signalled 9))), .aimed true none], _,
      ((((((((Run.nil.snoc (.worker (.spawn rfl rfl))).snoc (.worker (.store 7 rfl))).snoc
        (.worker (.mark rfl))).snoc (.worker (.time 0 rfl))).snoc
        (.check (k := true) rfl rfl rfl)).snoc (.worker (.wait rfl))).snoc
        (.kill (k := false) rfl rfl)).snoc
        (.worker (.look { sight := .ended (.signalled 9) } rfl))).snoc
        (.miss (k := true) rfl rfl rfl), rfl⟩
  obtain ⟨hsignals, hkilled, _, _⟩ := signals_from_outside hrun
  obtain ⟨pid, hpid, hstored, _⟩ := hsignals before _ after rfl trivial
  cases hpid
  exact ⟨before, after, s, hrun, hstored,
    hkilled.mpr ⟨false, 7, some .kill, List.mem_append_right _ List.mem_cons_self⟩, hanswer⟩

end Signalled

end TestHarness
