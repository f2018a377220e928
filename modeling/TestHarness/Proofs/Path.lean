import TestHarness.Path

/-!
# Parents of paths

Going from a path to its parent again and again ends (`exists_up?_eq_none`): each parent is written
shorter than the path before it. More than that, a name joined to a parent is written shorter than the
same name joined to the path (`length_join_parent`), although joining adds a `/` to some paths and none
to others. So one name never joins to the same path at two levels (`join_up?_injective`).
-/

namespace TestHarness.Path

/-- The path `n` parents up, if there are so many. -/
def up? (p : Path) : Nat → Option Path
  | 0 => some p
  | n + 1 => (p.up? n).bind parent

theorem up?_succ (p : Path) (n : Nat) : p.up? (n + 1) = p.parent.bind (·.up? n) := by
  induction n with
  | zero => exact (Option.bind_fun_some p.parent).symm
  | succ n ih =>
      calc p.up? (n + 2) = (p.up? (n + 1)).bind parent := rfl
        _ = (p.parent.bind (·.up? n)).bind parent := by rw [ih]
        _ = p.parent.bind (·.up? (n + 1)) := Option.bind_assoc _ _ _

/-- **Going up ends**: some `p.up? n` is `none`. -/
theorem exists_up?_eq_none (p : Path) : ∃ n, p.up? n = none := by
  -- by induction on the length of what is written
  induction hlen : p.bytes.length using Nat.strongRecOn generalizing p with
  | ind len ih =>
      cases hparent : p.parent with
      | none => exact ⟨1, hparent⟩
      | some q =>
          obtain ⟨n, hn⟩ := ih q.bytes.length (hlen ▸ parent_length hparent) q rfl
          refine ⟨n + 1, ?_⟩
          rw [up?_succ, hparent]
          exact hn

/-! ## Names joined at two levels -/

/-- Behind a `/` at the end stands no name, so the parent lacks the `/` and a name. -/
theorem parent_length_of_slash {p q : Path} (h : p.parent = some q)
    (hslash : p.bytes.getLast? = some slash) : q.bytes = [] ∨ q.bytes.length + 2 ≤ p.bytes.length := by
  have hlen : p.bytes.length = p.anchor.length + p.body.length := by
    have hanchor := p.length_anchor
    simp only [body, List.length_drop]
    omega
  unfold parent at h
  split at h
  · split at h
    · cases h
      exact Or.inl rfl
    · cases h
  · rename_i hne
    cases h
    refine Or.inr ?_
    -- the body is not empty, so it ends where the path does
    have hbody : p.body ≠ [] := by
      intro hnil
      rw [hnil] at hne
      exact hne rfl
    have hlast : p.body.getLast? = some slash := by
      have happend : p.bytes.take p.anchor.length ++ p.body = p.bytes := List.take_append_drop _ _
      rw [← hslash, ← happend, List.getLast?_append, Option.or_of_isSome (List.getLast?_isSome.mpr hbody)]
    obtain ⟨rest, hrest⟩ : ∃ rest, p.body.reverse = slash :: rest := by
      rw [← List.head?_reverse] at hlast
      exact List.head?_eq_some_iff.mp hlast
    have htrim : (trimReversed p.body.reverse).length ≤ rest.length := by
      rw [hrest]
      cases rest with
      | nil => simp [trimReversed]
      | cons c rest => exact length_trimReversed (c :: rest)
    have hsplit := length_splitLast (trimReversed p.body.reverse) (by simpa using hne)
    have hagain := length_trimReversed (splitLast (trimReversed p.body.reverse)).2
    have hbodyLength : p.body.length = rest.length + 1 := by
      rw [← List.length_reverse, hrest, List.length_cons]
    rw [hlen, List.length_append, List.length_reverse]
    omega

/-- The length of a `name` joined to a path: a `/` goes between them unless the path is empty or ends with
    one. -/
theorem length_join {name : Path} (hname : name.isAbsolute = false) (p : Path) :
    (p.join name).bytes.length = p.bytes.length + name.bytes.length
      + (if p.bytes = [] ∨ p.bytes.getLast? = some slash then 0 else 1) := by
  unfold join
  rw [hname]
  cases hlast : p.bytes.getLast? with
  | none =>
      have hnil : p.bytes = [] := List.getLast?_eq_none_iff.mp hlast
      simp [hnil]
  | some b =>
      have hne : p.bytes ≠ [] := by
        intro hnil
        rw [hnil] at hlast
        cases hlast
      by_cases hb : b = slash
      · simp [hb]
      · simp [hb, hne]
        omega

/-- What is joined by `join` stands at the end. -/
theorem getLast?_join {name : Path} (hname : name.isAbsolute = false) (hne : name.bytes ≠ []) (p : Path) :
    (p.join name).bytes.getLast? = name.bytes.getLast? := by
  have hlast : ∀ front : Bytes, (front ++ name.bytes).getLast? = name.bytes.getLast? := by
    intro front
    rw [List.getLast?_append, Option.or_of_isSome (List.getLast?_isSome.mpr hne)]
  unfold join
  rw [hname]
  cases p.bytes.getLast? with
  | none => rfl
  | some b =>
      by_cases hb : b = slash
      · simp only [hb, if_true]
        exact hlast p.bytes
      · simp only [hb, if_false]
        rw [List.append_cons]
        exact hlast (p.bytes ++ [slash])

/-- **A name joined to the `parent` is written shorter.** -/
theorem length_join_parent {p q name : Path} (hname : name.isAbsolute = false) (h : p.parent = some q) :
    (q.join name).bytes.length < (p.join name).bytes.length := by
  have hlen := parent_length h
  rw [length_join hname, length_join hname]
  by_cases hslash : p.bytes.getLast? = some slash
  · rcases parent_length_of_slash h hslash with hnil | hlen
    · rw [if_pos (Or.inl hnil)]
      omega
    · split <;> omega
  · have hne : p.bytes ≠ [] := by
      intro hnil
      rw [hnil] at hlen
      exact absurd hlen (Nat.not_lt_zero _)
    rw [if_neg (not_or.mpr ⟨hne, hslash⟩)]
    split <;> omega

theorem length_join_up? {p d e name : Path} (hname : name.isAbsolute = false) {i j : Nat} (hij : i < j)
    (hd : p.up? i = some d) (he : p.up? j = some e) :
    (e.join name).bytes.length < (d.join name).bytes.length := by
  induction j generalizing e with
  | zero => exact absurd hij (Nat.not_lt_zero i)
  | succ j ih =>
      obtain ⟨f, hf, hparent⟩ := Option.bind_eq_some_iff.mp he
      have hstep := length_join_parent hname hparent
      rcases Nat.lt_or_eq_of_le (Nat.le_of_lt_succ hij) with hlt | rfl
      · exact Nat.lt_trans hstep (ih hlt hf)
      · rw [hd] at hf
        cases hf
        exact hstep

/-- **One name, one level**: joined to `p.up? i` and to `p.up? j`, it is written with the same length only if
    `i = j`. -/
theorem join_up?_injective {p d e name : Path} (hname : name.isAbsolute = false) {i j : Nat}
    (hd : p.up? i = some d) (he : p.up? j = some e)
    (hsame : (d.join name).bytes.length = (e.join name).bytes.length) : i = j := by
  rcases Nat.lt_trichotomy i j with hlt | heq | hgt
  · exact absurd hsame (Nat.ne_of_gt (length_join_up? hname hlt hd he))
  · exact heq
  · exact absurd hsame (Nat.ne_of_lt (length_join_up? hname hgt he hd))

end TestHarness.Path
