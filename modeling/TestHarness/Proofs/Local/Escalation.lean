import Mathlib.Order.Monotone.Defs
import TestHarness.Proofs.Local.Calls

/-!
# How a wait ends a test that runs too long

A wait that finds its child running past the deadline first asks it to end, and then ends it, again and
again, with a grace period before each further attempt. All it remembers from one look to the next is when
it sent its last signal. The lemmas say what this memory holds after any row of looks (`lastSent_cases`),
and `escalation` which signal each look sends.

The deadline is asked for at every look anew: a look that finds it not passed (the timer may have been
started again) sends nothing and forgets nothing. What comes of a delivery is not looked at.
-/

namespace TestHarness.LocalRunner

/-! ## One look -/

/-- **The memory of a wait**, `lastSent`, is when it sent its last signal, so it changes exactly at a look
    that sends one; past the deadline a look sends none only if one was sent before. -/
theorem lastSent_look {w : Wait} {l : Look} {pid : Nat} (hchild : w.runner.child = some pid)
    (hsight : l.sight = .running) :
    ((look w l).2.1 = none ∧ (look w l).1.lastSent = w.lastSent ∧
      (l.expired = true → w.lastSent ≠ none)) ∨
    ((look w l).2.1 ≠ none ∧ l.expired = true ∧ (look w l).1.lastSent = some l.sent) := by
  rcases look_running_cases hchild hsight with
    ⟨hexpired, h⟩ | ⟨hexpired, _, h⟩ | ⟨_, hexpired, _, _, h⟩ | ⟨last, _, hlast, _, h⟩ <;> rw [h]
  · exact Or.inl ⟨rfl, rfl, fun htrue => absurd (hexpired.symm.trans htrue) Bool.false_ne_true⟩
  · exact Or.inr ⟨nofun, hexpired, rfl⟩
  · exact Or.inr ⟨nofun, hexpired, rfl⟩
  · exact Or.inl ⟨rfl, rfl, fun _ => hlast ▸ Option.some_ne_none last⟩

/-- Only a look that finds the child `.running` lets the wait go on, and only such a look signals. -/
theorem look_of_not_running {w : Wait} {l : Look} (hsight : l.sight ≠ .running) :
    (look w l).2.1 = none ∧ (look w l).2.2 ≠ .running := by
  cases hchild : w.runner.child with
  | none =>
      rw [look_noChild l hchild]
      exact ⟨rfl, nofun⟩
  | some pid =>
      cases hs : l.sight with
      | running => exact absurd hs hsight
      | ended status =>
          rw [look_ended hchild hs]
          exact ⟨rfl, nofun⟩
      | lost reason =>
          rw [look_lost hchild hs]
          exact ⟨rfl, nofun⟩

/-! ## A row of looks -/

/-- The first look of a `watch` is always made. -/
theorem signals_watch_cons (w : Wait) (l : Look) (looks : List Look) :
    (watch w (l :: looks)).2.1[0]? = some (look w l).2.1 := by
  rcases hlook : look w l with ⟨w', signal, verdict⟩
  cases verdict with
  | running => rw [watch_cons_running _ hlook]; rfl
  | ended status => rw [watch_cons_ended _ hlook]; rfl
  | failed e => rw [watch_cons_failed _ hlook]; rfl

theorem length_signals_watch {w : Wait} {looks : List Look} (h : (watch w looks).2.2 = .running) :
    (watch w looks).2.1.length = looks.length := by
  induction looks generalizing w with
  | nil => rfl
  | cons l looks ih =>
      rcases hlook : look w l with ⟨w', signal, verdict⟩
      cases verdict with
      | running =>
          rw [watch_cons_running _ hlook] at h ⊢
          exact congrArg (· + 1) (ih h)
      | ended status => rw [watch_cons_ended _ hlook] at h; cases h
      | failed e => rw [watch_cons_failed _ hlook] at h; cases h

/-- There is no look after one that does not find the child `.running`, and none after the last. -/
theorem signals_watch_of_stopped {w : Wait} {looks : List Look} {i : Nat}
    (h : looks[i]? = none ∨ ∃ m ∈ looks.take i, m.sight ≠ .running) :
    (watch w looks).2.1[i]? = none := by
  -- by induction on the looks: the wait is over at the first that does not find the child running
  induction looks generalizing w i with
  | nil => rfl
  | cons l looks ih =>
      cases i with
      | zero => rcases h with h | ⟨m, hm, _⟩ <;> contradiction
      | succ i =>
          rcases hlook : look w l with ⟨w', signal, verdict⟩
          cases verdict with
          | running =>
              rw [watch_cons_running _ hlook]
              refine ih ?_
              rcases h with h | ⟨m, hm, hsight⟩
              · exact Or.inl h
              · rcases List.mem_cons.mp hm with rfl | hm
                · have hverdict := (look_of_not_running (w := w) hsight).2
                  rw [hlook] at hverdict
                  exact absurd rfl hverdict
                · exact Or.inr ⟨m, hm, hsight⟩
          | ended status => rw [watch_cons_ended _ hlook]; rfl
          | failed e => rw [watch_cons_failed _ hlook]; rfl

/-! ## The looks of one wait -/

/-- The `Wait` after some looks. -/
def waitAfter (r : LocalRunner) (looks : List Look) : Wait := (watch { runner := r } looks).1

/-- The signal that the `i`-th look sends; none if it sends none or is not made. -/
def signalAt (r : LocalRunner) (looks : List Look) (i : Nat) : Option Signal :=
  (watch { runner := r } looks).2.1[i]?.join

/-- **A look past the deadline**: the `i`-th look is made, finds the child running, and finds the timer
    expired. -/
structure Past (looks : List Look) (i : Nat) (l : Look) : Prop where
  here : looks[i]? = some l
  made : ∀ m ∈ looks.take i, m.sight = .running
  running : l.sight = .running
  expired : l.expired = true

section

variable {r : LocalRunner} {pid : Nat} {looks : List Look} {i : Nat} {l : Look}

theorem waitAfter_running (hchild : r.child = some pid) (hmade : ∀ m ∈ looks, m.sight = .running) :
    (watch { runner := r } looks).2.2 = .running ∧
    (waitAfter r looks).runner = r.withTimedOut (r.timedOut || looks.any (·.expired)) :=
  watch_running (fun h => absurd rfl h) hchild hmade

theorem take_succ_of_here (hl : looks[i]? = some l) : looks.take (i + 1) = looks.take i ++ [l] := by
  rw [List.take_add_one, hl]
  rfl

/-- The signal of a look that is made is what `look` sends in the wait before it. -/
theorem signalAt_eq (hchild : r.child = some pid) (hl : looks[i]? = some l)
    (hmade : ∀ m ∈ looks.take i, m.sight = .running) :
    signalAt r looks i = (look (waitAfter r (looks.take i)) l).2.1 := by
  have hverdict := (waitAfter_running hchild hmade).1
  have hi : i < looks.length := (List.getElem?_eq_some_iff.mp hl).1
  have hlength : (watch { runner := r } (looks.take i)).2.1.length = i := by
    rw [length_signals_watch hverdict, List.length_take_of_le (Nat.le_of_lt hi)]
  have hsplit : looks.take i ++ l :: looks.drop (i + 1) = looks := by
    rw [← (List.getElem?_eq_some_iff.mp hl).2, List.getElem_cons_drop, List.take_append_drop]
  rw [signalAt]
  conv_lhs => rw [← hsplit]
  rw [watch_append hverdict, List.getElem?_append_right (Nat.le_of_eq hlength), hlength, Nat.sub_self,
    signals_watch_cons]
  rfl

theorem waitAfter_succ (hchild : r.child = some pid) (hl : looks[i]? = some l)
    (hmade : ∀ m ∈ looks.take i, m.sight = .running) (hsight : l.sight = .running) :
    waitAfter r (looks.take (i + 1)) = (look (waitAfter r (looks.take i)) l).1 := by
  obtain ⟨hverdict, hrunner⟩ := waitAfter_running hchild hmade
  have hchild' : (waitAfter r (looks.take i)).runner.child = some pid := by rw [hrunner]; exact hchild
  rw [take_succ_of_here hl, waitAfter, watch_append hverdict]
  show (watch (waitAfter r (looks.take i)) [l]).1 = _
  rcases look_running_cases hchild' hsight with
    ⟨_, h⟩ | ⟨_, _, h⟩ | ⟨_, _, _, _, h⟩ | ⟨_, _, _, _, h⟩
  all_goals
    rw [watch_cons_running [] h, h]
    rfl

/-- A look that is not `Past` the deadline sends nothing. -/
theorem signalAt_of_not_past (hchild : r.child = some pid) (h : ∀ l, ¬ Past looks i l) :
    signalAt r looks i = none := by
  by_cases hmade : ∀ m ∈ looks.take i, m.sight = .running
  · cases hl : looks[i]? with
    | none => rw [signalAt, signals_watch_of_stopped (Or.inl hl)]; rfl
    | some l =>
        rw [signalAt_eq hchild hl hmade]
        by_cases hsight : l.sight = .running
        · have hchild' : (waitAfter r (looks.take i)).runner.child = some pid := by
            rw [(waitAfter_running hchild hmade).2]; exact hchild
          -- three of the four cases have the timer expired, which makes the look past
          rcases look_running_cases hchild' hsight with
            ⟨_, hlook⟩ | ⟨hexpired, _⟩ | ⟨_, hexpired, _⟩ | ⟨_, hexpired, _⟩
          · rw [hlook]
          all_goals exact absurd ⟨hl, hmade, hsight, hexpired⟩ (h l)
        · exact (look_of_not_running hsight).1
  · obtain ⟨m, hm⟩ := Classical.not_forall.mp hmade
    obtain ⟨hmem, hsight⟩ := Classical.not_imp.mp hm
    rw [signalAt, signals_watch_of_stopped (Or.inr ⟨m, hmem, hsight⟩)]
    rfl

theorem child_waitAfter (hchild : r.child = some pid) (hmade : ∀ m ∈ looks, m.sight = .running) :
    (waitAfter r looks).runner.child = some pid := by
  rw [(waitAfter_running hchild hmade).2]
  exact hchild

/-- **What a wait remembers**: `lastSent = none` if no look was `Past` the deadline, else when the last signal
    was sent. -/
theorem lastSent_cases (hchild : r.child = some pid) (hi : i ≤ looks.length)
    (hmade : ∀ m ∈ looks.take i, m.sight = .running) :
    ((waitAfter r (looks.take i)).lastSent = none ∧ ∀ j < i, ∀ m, ¬ Past looks j m) ∨
    (∃ j m, j < i ∧ Past looks j m ∧ signalAt r looks j ≠ none ∧
      (∀ k, j < k → k < i → signalAt r looks k = none) ∧
      (waitAfter r (looks.take i)).lastSent = some m.sent) := by
  -- by induction on the looks made; a look that sends nothing leaves the last signal the last
  induction i with
  | zero => exact Or.inl ⟨rfl, fun j hj => absurd hj (Nat.not_lt_zero j)⟩
  | succ i ih =>
      have hl : looks[i]? = some looks[i] := List.getElem?_eq_getElem hi
      rw [take_succ_of_here hl, List.forall_mem_append, List.forall_mem_singleton] at hmade
      obtain ⟨hmade, hsight⟩ := hmade
      rw [waitAfter_succ hchild hl hmade hsight]
      have hsignal := signalAt_eq hchild hl hmade
      rcases lastSent_look (child_waitAfter hchild hmade) hsight with
        ⟨hquiet, hsame, hexpired⟩ | ⟨hsent, hexpired, hlast⟩
      · rw [hsame]
        rw [hquiet] at hsignal
        rcases ih (Nat.le_of_succ_le hi) hmade with ⟨hnone, hnever⟩ | ⟨j, m, hj, hpast, hsent, hbetween, hlast⟩
        · refine Or.inl ⟨hnone, fun j hj m hpast => ?_⟩
          rcases Nat.lt_or_eq_of_le (Nat.le_of_lt_succ hj) with hlt | rfl
          · exact hnever j hlt m hpast
          · have hm := hpast.here
            rw [hl] at hm
            cases hm
            exact hexpired hpast.expired hnone
        · refine Or.inr ⟨j, m, Nat.lt_succ_of_lt hj, hpast, hsent, fun k hjk hk => ?_, hlast⟩
          rcases Nat.lt_or_eq_of_le (Nat.le_of_lt_succ hk) with hlt | rfl
          · exact hbetween k hjk hlt
          · exact hsignal
      · refine Or.inr ⟨i, looks[i], Nat.lt_succ_self i, ⟨hl, hmade, hsight, hexpired⟩, ?_, ?_, hlast⟩
        · rw [hsignal]
          exact hsent
        · intro k hik hk
          exact absurd hk (Nat.not_lt_of_le hik)

/-! ### Which signal a look sends -/

theorem Past.le_length (h : Past looks i l) : i ≤ looks.length :=
  Nat.le_of_lt (List.getElem?_eq_some_iff.mp h.here).1

theorem Past.eq {m : Look} (h : Past looks i l) (h' : Past looks i m) : l = m := by
  have hhere := h.here
  rw [h'.here] at hhere
  exact (Option.some_inj.mp hhere).symm

/-- **The first look `Past` the deadline** sends `.term`. -/
theorem signalAt_first (hchild : r.child = some pid) (h : Past looks i l)
    (hfirst : ∀ j < i, ∀ m, ¬ Past looks j m) : signalAt r looks i = some .term := by
  rw [signalAt_eq hchild h.here h.made]
  rcases lastSent_cases hchild h.le_length h.made with ⟨hnone, _⟩ | ⟨j, m, hj, hpast, _⟩
  · rcases look_running_cases (child_waitAfter hchild h.made) h.running with
      ⟨hexpired, _⟩ | ⟨_, _, hlook⟩ | ⟨last, _, hlast, _⟩ | ⟨last, _, hlast, _⟩
    · rw [h.expired] at hexpired; cases hexpired
    · rw [hlook]
    · rw [hnone] at hlast; cases hlast
    · rw [hnone] at hlast; cases hlast
  · exact absurd hpast (hfirst j hj m)

/-- Signals are sent `Past` the deadline only. -/
theorem past_of_signalAt (hchild : r.child = some pid) (h : signalAt r looks i ≠ none) :
    ∃ l, Past looks i l := by
  by_contra hnone
  exact h (signalAt_of_not_past hchild fun l hpast => hnone ⟨l, hpast⟩)

/-- **A later look `Past` the deadline** sends `.kill` if `killGrace` has passed since the last signal was
    sent, and else nothing. -/
theorem signalAt_later (hchild : r.child = some pid) (h : Past looks i l) {j : Nat} {m : Look} (hj : j < i)
    (hpast : Past looks j m) (hsent : signalAt r looks j ≠ none)
    (hbetween : ∀ k, j < k → k < i → signalAt r looks k = none) :
    signalAt r looks i
      = if r.core.options.runner.killGrace ≤ l.checked - m.sent then some .kill else none := by
  have hgrace : (waitAfter r (looks.take i)).runner.core.options.runner.killGrace
      = r.core.options.runner.killGrace := by
    rw [(waitAfter_running hchild h.made).2]
    rfl
  rcases lastSent_cases hchild h.le_length h.made with ⟨_, hnever⟩ | ⟨j', m', hj', hpast', hsent', hbetween', hlast⟩
  · exact absurd hpast (hnever j hj m)
  · -- the last signal before this look is the given one
    obtain rfl : j = j' := by
      rcases Nat.lt_trichotomy j j' with hlt | heq | hgt
      · exact absurd (hbetween j' hlt hj') hsent'
      · exact heq
      · exact absurd (hbetween' j hgt hj) hsent
    obtain rfl := hpast.eq hpast'
    rw [signalAt_eq hchild h.here h.made]
    rcases look_running_cases (child_waitAfter hchild h.made) h.running with
      ⟨hexpired, _⟩ | ⟨_, hnone, _⟩ | ⟨last, _, hlast', hpassed, hlook⟩ | ⟨last, _, hlast', hpassed, hlook⟩
    · rw [h.expired] at hexpired; cases hexpired
    · rw [hlast] at hnone; cases hnone
    · rw [hlast] at hlast'
      cases hlast'
      rw [hgrace] at hpassed
      rw [hlook, if_pos hpassed]
    · rw [hlast] at hlast'
      cases hlast'
      rw [hgrace] at hpassed
      rw [hlook, if_neg hpassed]

/-- **Any signal** is the first one, and then `.term`, or has a last one before it, and then is `.kill` with
    at least `killGrace` between the two. -/
theorem signalAt_cases (hchild : r.child = some pid) {signal : Signal}
    (h : signalAt r looks i = some signal) :
    (signal = .term ∧ ∀ j < i, signalAt r looks j = none) ∨
    (signal = .kill ∧ ∃ l j m, Past looks i l ∧ j < i ∧ Past looks j m ∧ signalAt r looks j ≠ none ∧
      (∀ k, j < k → k < i → signalAt r looks k = none) ∧
      r.core.options.runner.killGrace ≤ l.checked - m.sent) := by
  obtain ⟨l, hpast⟩ := past_of_signalAt hchild (h ▸ Option.some_ne_none signal)
  rcases lastSent_cases hchild hpast.le_length hpast.made with
    ⟨_, hnever⟩ | ⟨j, m, hj, hpast', hsent, hbetween, _⟩
  · rw [signalAt_first hchild hpast hnever] at h
    cases h
    exact Or.inl ⟨rfl, fun j hj => signalAt_of_not_past hchild (hnever j hj)⟩
  · rw [signalAt_later hchild hpast hj hpast' hsent hbetween] at h
    obtain ⟨hgrace, hkill⟩ := Option.ite_none_right_eq_some.mp h
    exact Or.inr ⟨(Option.some_inj.mp hkill).symm, l, j, m, hpast, hj, hpast', hsent, hbetween, hgrace⟩

/-- **`SIGTERM` comes first.** -/
theorem term_before_kill (hchild : r.child = some pid) (h : signalAt r looks i = some .kill) :
    ∃ j < i, signalAt r looks j = some .term := by
  -- each `SIGKILL` has a signal before it, so going back ends at a `SIGTERM`
  induction i using Nat.strongRecOn with
  | ind i ih =>
      rcases signalAt_cases hchild h with ⟨hterm, _⟩ | ⟨_, _, j, _, _, hj, _, hsent, _⟩
      · cases hterm
      · obtain ⟨signal, hsignal⟩ := Option.ne_none_iff_exists'.mp hsent
        rcases signalAt_cases hchild hsignal with ⟨rfl, _⟩ | ⟨rfl, _⟩
        · exact ⟨j, hj, hsignal⟩
        · obtain ⟨k, hk, hterm⟩ := ih j hj hsignal
          exact ⟨k, Nat.lt_trans hk hj, hterm⟩

theorem signals_apart (hchild : r.child = some pid) {delivered : Nat → Duration} (hmono : Monotone delivered)
    (hsent : ∀ i l, Past looks i l → signalAt r looks i ≠ none → delivered i ≤ l.sent)
    (hchecked : ∀ i l, Past looks i l → signalAt r looks i = some .kill → l.checked ≤ delivered i)
    {j : Nat} (hj : j < i) (hsignal : signalAt r looks j ≠ none) (h : signalAt r looks i ≠ none) :
    delivered j + r.core.options.runner.killGrace ≤ delivered i := by
  obtain ⟨signal, hi⟩ := Option.ne_none_iff_exists'.mp h
  rcases signalAt_cases hchild hi with ⟨_, hnever⟩ | ⟨rfl, l, k, m, hpast, hk, hpast', hsignal', hbetween, hgrace⟩
  · exact absurd (hnever j hj) hsignal
  · -- the last signal before this one is sent no earlier than the given one
    have hle : j ≤ k := Nat.le_of_not_lt fun hlt => hsignal (hbetween j hlt hj)
    have hlater : delivered j ≤ m.sent := Nat.le_trans (hmono hle) (hsent k m hpast' hsignal')
    have hafter : l.checked ≤ delivered i := hchecked i l hpast hi
    rcases Nat.eq_zero_or_pos r.core.options.runner.killGrace with hzero | hpos
    · rw [hzero]
      exact hmono (Nat.le_of_lt hj)
    · have horder : m.sent ≤ l.checked :=
        Nat.le_of_lt (Nat.lt_of_sub_pos (Nat.lt_of_lt_of_le hpos hgrace))
      calc delivered j + r.core.options.runner.killGrace
          ≤ m.sent + r.core.options.runner.killGrace := Nat.add_le_add_right hlater _
        _ ≤ l.checked := (Nat.le_sub_iff_add_le' horder).mp hgrace
        _ ≤ delivered i := hafter

/-! ### Whether the run has timed out -/

theorem past_cons {l m : Look} :
    Past (l :: looks) i m ↔ l.sight = .running ∧
      ((i = 0 ∧ m = l ∧ l.expired = true) ∨ ∃ k, i = k + 1 ∧ Past looks k m) := by
  constructor
  · intro h
    cases i with
    | zero =>
        have hm : l = m := Option.some_inj.mp h.here
        exact ⟨hm ▸ h.running, Or.inl ⟨rfl, hm.symm, hm ▸ h.expired⟩⟩
    | succ k =>
        obtain ⟨hl, hmade⟩ := List.forall_mem_cons.mp h.made
        exact ⟨hl, Or.inr ⟨k, rfl, h.here, hmade, h.running, h.expired⟩⟩
  · rintro ⟨hl, ⟨rfl, rfl, hexpired⟩ | ⟨k, rfl, h⟩⟩
    · exact ⟨rfl, List.forall_mem_nil _, hl, hexpired⟩
    · exact ⟨h.here, List.forall_mem_cons.mpr ⟨hl, h.made⟩, h.running, h.expired⟩

theorem past_take {n : Nat} : Past (looks.take n) i l ↔ i < n ∧ Past looks i l := by
  constructor
  · intro h
    have hi : i < n := by
      have hlt := (List.getElem?_eq_some_iff.mp h.here).1
      rw [List.length_take] at hlt
      exact Nat.lt_of_lt_of_le hlt (Nat.min_le_left _ _)
    have hhere := h.here
    have hmade := h.made
    rw [List.getElem?_take_of_lt hi] at hhere
    rw [List.take_take, Nat.min_eq_left (Nat.le_of_lt hi)] at hmade
    exact ⟨hi, hhere, hmade, h.running, h.expired⟩
  · rintro ⟨hi, h⟩
    refine ⟨?_, ?_, h.running, h.expired⟩
    · rw [List.getElem?_take_of_lt hi]
      exact h.here
    · rw [List.take_take, Nat.min_eq_left (Nat.le_of_lt hi)]
      exact h.made

/-- **A wait has `timedOut`** if the runner had, or a look was `Past` the deadline. -/
theorem timedOut_watch {w : Wait} (hw : w.Honest) (hchild : w.runner.child = some pid) :
    (watch w looks).1.runner.timedOut = true ↔
      w.runner.timedOut = true ∨ ∃ i l, Past looks i l := by
  -- by induction on the looks; only one that finds the child running goes on to the next
  induction looks generalizing w with
  | nil =>
      refine ⟨Or.inl, ?_⟩
      rintro (h | ⟨i, l, hpast⟩)
      · exact h
      · cases hpast.here
  | cons l looks ih =>
      cases hsight : l.sight with
      | running =>
          obtain ⟨w', signal, hlook, hw', hrunner⟩ := look_running hw hchild hsight
          have hchild' : w'.runner.child = some pid := by rw [hrunner]; exact hchild
          have htimed : w'.runner.timedOut = (w.runner.timedOut || l.expired) := by rw [hrunner]; rfl
          rw [watch_cons_running looks hlook]
          refine (ih hw' hchild').trans ?_
          rw [htimed, Bool.or_eq_true, or_assoc]
          refine or_congr_right ?_
          constructor
          · rintro (hexpired | ⟨k, m, hpast⟩)
            · exact ⟨0, l, past_cons.mpr ⟨hsight, Or.inl ⟨rfl, rfl, hexpired⟩⟩⟩
            · exact ⟨k + 1, m, past_cons.mpr ⟨hsight, Or.inr ⟨k, rfl, hpast⟩⟩⟩
          · rintro ⟨i, m, hpast⟩
            rcases (past_cons.mp hpast).2 with ⟨_, _, hexpired⟩ | ⟨k, _, hpast⟩
            · exact Or.inl hexpired
            · exact Or.inr ⟨k, m, hpast⟩
      | ended status =>
          rw [watch_cons_ended looks (look_ended hchild hsight)]
          refine ⟨Or.inl, ?_⟩
          rintro (h | ⟨i, m, hpast⟩)
          · exact h
          · rw [(past_cons.mp hpast).1] at hsight; cases hsight
      | lost reason =>
          rw [watch_cons_failed looks (look_lost hchild hsight)]
          refine ⟨Or.inl, ?_⟩
          rintro (h | ⟨i, m, hpast⟩)
          · exact h
          · rw [(past_cons.mp hpast).1] at hsight; cases hsight

end

/-! ## The whole escalation -/

/-- **Escalation.** Take a runner that holds its child, and the looks of a wait. Past the deadline are the
    looks that find the child running and the timer expired.

    Only a look past the deadline sends a signal. The first one sends `SIGTERM`, and no later one does. A
    later one sends `SIGKILL` if a grace period has passed between the reading of the clock after the last
    signal and its own, and else nothing. After any number of looks the runner has timed out exactly if
    it had before or one of them was past the deadline. So no `SIGKILL` comes before the `SIGTERM`, and
    between the deliveries of any two signals lies at least a grace period, whenever each is delivered
    within its look. -/
theorem escalation {r : LocalRunner} {pid : Nat} (hchild : r.child = some pid) (looks : List Look) :
    (∀ i, (∀ l, ¬ Past looks i l) → signalAt r looks i = none) ∧
    (∀ i l, Past looks i l → (∀ j < i, ∀ m, ¬ Past looks j m) → signalAt r looks i = some .term) ∧
    (∀ i j, signalAt r looks i = some .term → j ≠ i → signalAt r looks j ≠ some .term) ∧
    (∀ i l j m, Past looks i l → j < i → Past looks j m → signalAt r looks j ≠ none →
      (∀ k, j < k → k < i → signalAt r looks k = none) →
      signalAt r looks i
        = if r.core.options.runner.killGrace ≤ l.checked - m.sent then some .kill else none) ∧
    (∀ n, (waitAfter r (looks.take n)).runner.timedOut = true ↔
      r.timedOut = true ∨ ∃ i < n, ∃ l, Past looks i l) ∧
    (∀ i, signalAt r looks i = some .kill → ∃ j < i, signalAt r looks j = some .term) ∧
    (∀ delivered : Nat → Duration, Monotone delivered →
      (∀ i l, Past looks i l → signalAt r looks i ≠ none → delivered i ≤ l.sent) →
      (∀ i l, Past looks i l → signalAt r looks i = some .kill → l.checked ≤ delivered i) →
      ∀ i j, j < i → signalAt r looks j ≠ none → signalAt r looks i ≠ none →
        delivered j + r.core.options.runner.killGrace ≤ delivered i) := by
  refine ⟨fun i => signalAt_of_not_past hchild, fun i l => signalAt_first hchild, ?_, ?_, ?_,
    fun i => term_before_kill hchild, ?_⟩
  · -- of two signals with nothing before them the later one has the earlier one before it
    intro i j hi hne hj
    rcases signalAt_cases hchild hi with ⟨_, hbefore⟩ | ⟨hkill, _⟩
    · rcases signalAt_cases hchild hj with ⟨_, hbefore'⟩ | ⟨hkill, _⟩
      · rcases Nat.lt_or_gt_of_ne hne with hlt | hgt
        · rw [hbefore j hlt] at hj; cases hj
        · rw [hbefore' i hgt] at hi; cases hi
      · cases hkill
    · cases hkill
  · intro i l j m hpast hj hpast' hsent hbetween
    exact signalAt_later hchild hpast hj hpast' hsent hbetween
  · intro n
    have hw : Wait.Honest { runner := r } := fun h => absurd rfl h
    refine (timedOut_watch hw hchild).trans (or_congr_right ?_)
    constructor
    · rintro ⟨i, l, hpast⟩
      obtain ⟨hi, hpast⟩ := past_take.mp hpast
      exact ⟨i, hi, l, hpast⟩
    · rintro ⟨i, hi, l, hpast⟩
      exact ⟨i, l, past_take.mpr ⟨hi, hpast⟩⟩
  · intro delivered hmono hsent hchecked i j hj hsignal h
    exact signals_apart hchild hmono hsent hchecked hj hsignal h

/-- A child that ignores `SIGTERM`: a look before the deadline, one that asks it to end, one too early to
    end it, one after the grace period, and its end. -/
theorem escalation_of_ignored_term :
    let r : LocalRunner :=
      { core := { job := { tester := Tester.plan { name := "t", command := .ofProgram [] } }
                  options := { runner := { killGraceMs := 100 } }, phase := .spawned }
        child := some 7, capturing := true }
    let looks : List Look :=
      [{ sight := .running }, { sight := .running, expired := true, sent := 50000 },
        { sight := .running, expired := true, checked := 60000 },
        { sight := .running, expired := true, checked := 150000, sent := 150010 },
        { sight := .ended (.signalled 9), expired := true }]
    r.child = some 7 ∧ signalAt r looks 1 = some .term ∧ signalAt r looks 3 = some .kill ∧
    signalAt r looks 4 = none := by
  intro r looks
  have hchild : r.child = some 7 := rfl
  obtain ⟨hquiet, hfirst, _, hlater, _⟩ := escalation hchild looks
  have hterm : Past looks 1 { sight := .running, expired := true, sent := 50000 } :=
    ⟨rfl, by decide, rfl, rfl⟩
  have hkill : Past looks 3 { sight := .running, expired := true, checked := 150000, sent := 150010 } :=
    ⟨rfl, by decide, rfl, rfl⟩
  have hsent : signalAt r looks 1 = some .term := by
    refine hfirst 1 _ hterm ?_
    intro j hj m hpast
    obtain rfl : j = 0 := Nat.lt_one_iff.mp hj
    cases hpast.here
    cases hpast.expired
  refine ⟨hchild, hsent, ?_, ?_⟩
  · rw [hlater 3 _ 1 _ hkill (by decide) hterm (hsent ▸ Option.some_ne_none _) ?_]
    · exact if_pos (by decide)
    · intro k hk hk'
      obtain rfl : k = 2 := by omega
      decide +kernel
  · refine hquiet 4 fun l hpast => ?_
    cases hpast.here
    cases hpast.running

end TestHarness.LocalRunner
