/-!
# Labelled runs

A system moves by steps, and each step carries a label that says what happened in it. A run collects the
labels in the order of the steps, so that "before" and "after" can be read off its trace. Which thread
takes the next step is never decided: a statement about all runs is one about every interleaving.
-/

namespace TestHarness

/-- **Runs.** The system gets from `start` to a state by steps whose labels are the trace. -/
inductive Run {σ α : Type} (step : σ → α → σ → Prop) (start : σ) : List α → σ → Prop where
  | nil : Run step start [] start
  | snoc {trace : List α} {s s' : σ} {a : α} :
      Run step start trace s → step s a s' → Run step start (trace ++ [a]) s'

namespace Run

variable {σ α : Type} {step : σ → α → σ → Prop} {start : σ}

/-- A `Run` goes on where another one ends. -/
theorem append {first rest : List α} {s s' : σ} (h : Run step start first s)
    (h' : Run step s rest s') : Run step start (first ++ rest) s' := by
  induction h' with
  | nil => rw [List.append_nil]; exact h
  | snoc _ hstep ih => rw [← List.append_assoc]; exact ih.snoc hstep

/-- The last label of a trace, `a` in `trace ++ [a]`, is the label of the last step. -/
theorem unsnoc {trace : List α} {a : α} {s : σ} (h : Run step start (trace ++ [a]) s) :
    ∃ s₁, Run step start trace s₁ ∧ step s₁ a s := by
  generalize htrace : trace ++ [a] = whole at h
  cases h with
  | nil => exact absurd htrace (by simp)
  | snoc hrun hstep =>
      obtain ⟨rfl, hlast⟩ := List.append_inj' htrace rfl
      cases hlast
      exact ⟨_, hrun, hstep⟩

/-- A `Run` whose trace has two parts passes through a state between them. -/
theorem split {first rest : List α} {s : σ} (h : Run step start (first ++ rest) s) :
    ∃ s₁, Run step start first s₁ ∧ Run step s₁ rest s := by
  -- by induction on the length of the second part, whose last label is taken off
  induction hlen : rest.length generalizing rest s with
  | zero =>
      obtain rfl := List.eq_nil_of_length_eq_zero hlen
      rw [List.append_nil] at h
      exact ⟨s, h, .nil⟩
  | succ n ih =>
      obtain ⟨front, last, rfl⟩ := (List.eq_nil_or_concat rest).resolve_left (by rintro rfl; cases hlen)
      rw [List.concat_eq_append] at h hlen ⊢
      rw [← List.append_assoc] at h
      obtain ⟨s', hfront, hstep⟩ := h.unsnoc
      obtain ⟨s₁, hfirst, hrest⟩ := ih hfront (by simpa using hlen)
      exact ⟨s₁, hfirst, hrest.snoc hstep⟩

/-- **A trace cut at one of its labels** is a `Run` up to the step with that label, and the step. -/
theorem cut {before after : List α} {a : α} {s : σ} (h : Run step start (before ++ a :: after) s) :
    ∃ s₁ s₂, Run step start before s₁ ∧ step s₁ a s₂ := by
  rw [← List.singleton_append, ← List.append_assoc] at h
  obtain ⟨s₂, hbefore, _⟩ := h.split
  obtain ⟨s₁, hrun, hstep⟩ := hbefore.unsnoc
  exact ⟨s₁, s₂, hrun, hstep⟩

/-- Each label of a trace has been the label of a `step`. -/
theorem step_of_mem {trace : List α} {a : α} {s : σ} (h : Run step start trace s) (hmem : a ∈ trace) :
    ∃ s₁ s₂, step s₁ a s₂ := by
  obtain ⟨before, after, htrace⟩ := List.append_of_mem hmem
  rw [htrace] at h
  obtain ⟨s₁, s₂, _, hstep⟩ := h.cut
  exact ⟨s₁, s₂, hstep⟩

/-! ### What happens once -/

variable {marked : α → Bool} (after : σ → Prop)

/-- A step with `marked a` leads into states, `after`, that no step leaves: the run has not left them. -/
theorem after_of_marked (henter : ∀ s a s', step s a s' → marked a = true → after s')
    (hkeep : ∀ s a s', step s a s' → after s → after s') {trace : List α} {s : σ}
    (h : Run step start trace s) {a : α} (hmem : a ∈ trace) (ha : marked a = true) : after s := by
  induction h with
  | nil => exact absurd hmem List.not_mem_nil
  | @snoc trace s s' b _ hstep ih =>
      rcases List.mem_append.mp hmem with hold | hnew
      · exact hkeep s b s' hstep (ih hold)
      · rw [List.mem_singleton.mp hnew] at ha
        exact henter s b s' hstep ha

/-- **At most once.** If no step is `marked` in the states that a marked step leads into, a `Run` has at most
    one such step. -/
theorem countP_le_one (henter : ∀ s a s', step s a s' → marked a = true → after s')
    (hkeep : ∀ s a s', step s a s' → after s → after s')
    (hnever : ∀ s a s', step s a s' → after s → marked a = false) {trace : List α} {s : σ}
    (h : Run step start trace s) : trace.countP marked ≤ 1 := by
  induction h with
  | nil => exact Nat.zero_le 1
  | @snoc trace s s' b hrun hstep ih =>
      rw [List.countP_append, List.countP_singleton]
      by_cases hb : marked b = true
      · -- had there been one before, this one could not be
        have hnone : trace.countP marked = 0 := by
          rw [List.countP_eq_zero]
          intro a hmem ha
          have hfalse := hnever s b s' hstep (hrun.after_of_marked after henter hkeep hmem ha)
          rw [hfalse] at hb
          cases hb
        simp only [hnone, if_pos hb, Nat.zero_add, Nat.le_refl]
      · rw [if_neg hb]
        exact ih

end Run

/-- What is read off a trace by `filterMap` grows by what is read off its last label. -/
theorem filterMap_snoc {α β : Type} (read : α → Option β) (trace : List α) (a : α) :
    (trace ++ [a]).filterMap read = trace.filterMap read ++ (read a).toList := by
  rw [List.filterMap_append]
  cases h : read a with
  | none => rw [List.filterMap_cons_none h]; rfl
  | some b => rw [List.filterMap_cons_some h]; rfl

/-- The texts that are read off a trace, joined by `String.join`, grow by the text of its last label. -/
theorem join_filterMap_snoc {α : Type} (read : α → Option String) (trace : List α) (a : α) :
    String.join ((trace ++ [a]).filterMap read)
      = String.join (trace.filterMap read) ++ (read a).getD "" := by
  rw [filterMap_snoc, String.join_append]
  cases read a with
  | none => rfl
  | some text => exact congrArg _ (String.join_cons.trans String.append_empty)

end TestHarness
