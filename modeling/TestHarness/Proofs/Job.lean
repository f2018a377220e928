import TestHarness.Job.Basic

/-!
# What notices do to a job

A run of notices leaves the job's tester alone. Of the statuses among them only the last one counts, and
the job has all their caveats.
-/

namespace TestHarness

/-- The status that a `Notice` sets. -/
def Notice.status? : Notice → Option Status
  | .status s => some s
  | .caveat _ => none

namespace Job

@[simp] theorem tester_notify (j : Job) (n : Notice) : (j.notify n).tester = j.tester := by
  cases n with
  | status s => rfl
  | caveat text => simp only [notify, addCaveat]; split <;> rfl

@[simp] theorem tester_notifyAll (j : Job) (ns : List Notice) : (j.notifyAll ns).tester = j.tester := by
  unfold notifyAll
  induction ns generalizing j with
  | nil => rfl
  | cons n ns ih => rw [List.foldl_cons, ih, tester_notify]

theorem notifyAll_append (j : Job) (first rest : List Notice) :
    j.notifyAll (first ++ rest) = (j.notifyAll first).notifyAll rest :=
  List.foldl_append

theorem status_notify (j : Job) (n : Notice) : (j.notify n).status = n.status?.getD j.status := by
  cases n with
  | status s => rfl
  | caveat text => simp only [notify, addCaveat]; split <;> rfl

/-- **The last status counts**, `getLast?` of those among the notices, and the job keeps its own if there is
    none. -/
theorem status_notifyAll (j : Job) (ns : List Notice) :
    (j.notifyAll ns).status = (ns.filterMap Notice.status?).getLast?.getD j.status := by
  unfold notifyAll
  induction ns generalizing j with
  | nil => rfl
  | cons n ns ih =>
      rw [List.foldl_cons, ih, status_notify]
      cases hn : n.status? with
      | none => rw [List.filterMap_cons_none hn]; rfl
      | some s => rw [List.filterMap_cons_some hn, List.getLast?_cons]; rfl

/-- Statuses attach no caveat: `notifyAll` of them leaves `caveats` alone. -/
theorem caveats_notifyAll_status (j : Job) (statuses : List Status) :
    (j.notifyAll (statuses.map Notice.status)).caveats = j.caveats := by
  unfold notifyAll
  induction statuses generalizing j with
  | nil => rfl
  | cons s statuses ih => exact ih (j.setStatus s)

theorem mem_caveats_notify {j : Job} (n : Notice) {text : String} (h : text ∈ j.caveats) :
    text ∈ (j.notify n).caveats := by
  cases n with
  | status s => exact h
  | caveat other =>
      rw [notify, addCaveat]
      split
      · exact h
      · exact List.mem_append_left _ h

theorem mem_caveats_caveat (j : Job) (text : String) : text ∈ (j.notify (.caveat text)).caveats := by
  rw [notify, addCaveat]
  split
  · assumption
  · exact List.mem_append_right _ List.mem_cons_self

/-- **No caveat is lost** by `notifyAll`, neither an old one nor one of the notices. -/
theorem mem_caveats_notifyAll {j : Job} {ns : List Notice} {text : String}
    (h : text ∈ j.caveats ∨ .caveat text ∈ ns) : text ∈ (j.notifyAll ns).caveats := by
  unfold notifyAll
  induction ns generalizing j with
  | nil => exact h.resolve_right List.not_mem_nil
  | cons n ns ih =>
      refine ih ?_
      rcases h with hj | hns
      · exact Or.inl (mem_caveats_notify n hj)
      · rcases List.mem_cons.mp hns with rfl | hrest
        · exact Or.inl (mem_caveats_caveat j text)
        · exact Or.inr hrest

end Job

end TestHarness
