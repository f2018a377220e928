import TestHarness.Proofs.Path

/-!
# The steps of a path

Of the names of a path only some lead anywhere: the empty names of its repeated `/` and the name `.` stay
where they are. What is left are the *steps* of the path (`Path.steps`). However a path is written, its
parent lacks its last step and nothing else (`steps_parent`), and joining puts the steps together
(`steps_join`). A parent is absolute where the path is (`isAbsolute_parent`). So all parents of a path, one
above the other, have the first of its steps (`steps_up?`).
-/

namespace TestHarness.Path

/-- Whether a name leads on: it is neither empty nor `.`. -/
def moves (name : Bytes) : Bool := decide (name ≠ [] ∧ name ≠ [dot])

/-- The names among octets that lead on, in the order of `splitSlash`. -/
def stepsOf (bs : Bytes) : List Bytes := (splitSlash bs).filter moves

/-- **The steps of a path**: `stepsOf` its octets. -/
def steps (p : Path) : List Bytes := stepsOf p.bytes

/-! ## Splitting -/

theorem splitSlash_ne_nil (bs : Bytes) : splitSlash bs ≠ [] := by
  cases bs with
  | nil => simp [splitSlash]
  | cons b bs =>
      unfold splitSlash
      split
      · simp
      · split <;> simp

theorem splitSlash_append (a b : Bytes) : splitSlash (a ++ slash :: b) = splitSlash a ++ splitSlash b := by
  induction a with
  | nil => simp [splitSlash]
  | cons x a ih =>
      by_cases hx : x = slash
      · simp [splitSlash, hx, ih]
      · obtain ⟨name, names, ha⟩ := List.exists_cons_of_ne_nil (splitSlash_ne_nil a)
        simp [splitSlash, hx, ih, ha]

theorem splitSlash_of_notMem {bs : Bytes} (h : slash ∉ bs) : splitSlash bs = [bs] := by
  induction bs with
  | nil => rfl
  | cons b bs ih =>
      rw [List.mem_cons, not_or] at h
      obtain ⟨hb, hbs⟩ := h
      have hb : b ≠ slash := fun heq => hb heq.symm
      simp [splitSlash, hb, ih hbs]

@[simp] theorem stepsOf_nil : stepsOf [] = [] := by decide

@[simp] theorem stepsOf_dot : stepsOf [dot] = [] := by decide

@[simp] theorem stepsOf_append (a b : Bytes) : stepsOf (a ++ slash :: b) = stepsOf a ++ stepsOf b := by
  simp only [stepsOf, splitSlash_append, List.filter_append]

@[simp] theorem stepsOf_slash_cons (bs : Bytes) : stepsOf (slash :: bs) = stepsOf bs :=
  stepsOf_append [] bs

/-! ## Ends of paths -/

/-- What `trimReversed` drops leads nowhere. -/
theorem stepsOf_trimReversed (bs : Bytes) : stepsOf (trimReversed bs).reverse = stepsOf bs.reverse := by
  fun_induction trimReversed bs with
  | case1 => rfl
  | case2 b hb => rcases hb with rfl | rfl <;> simp
  | case3 b hb => rfl
  | case4 c rest ih =>
      have happend : (slash :: c :: rest).reverse = (c :: rest).reverse ++ slash :: [] := List.reverse_cons
      rw [ih, happend, stepsOf_append, stepsOf_nil, List.append_nil]
  | case5 b c rest hb hdot ih =>
      obtain ⟨rfl, rfl⟩ := hdot
      have happend : (dot :: slash :: rest).reverse = rest.reverse ++ slash :: [dot] := by simp
      rw [ih, happend, stepsOf_append, stepsOf_dot, List.append_nil]
  | case6 b c rest hb hdot => rfl

theorem trimReversed_suffix (bs : Bytes) : trimReversed bs <:+ bs := by
  fun_induction trimReversed bs with
  | case1 => exact List.suffix_refl _
  | case2 b hb => exact List.nil_suffix
  | case3 b hb => exact List.suffix_refl _
  | case4 c rest ih => exact ih.trans (List.suffix_cons _ _)
  | case5 b c rest hb hdot ih => exact ih.trans ((List.suffix_cons _ _).trans (List.suffix_cons _ _))
  | case6 b c rest hb hdot => exact List.suffix_refl _

/-- After `trimReversed`, a path ends with a step. -/
theorem moves_splitLast {bs : Bytes} (h : trimReversed bs ≠ []) :
    moves (splitLast (trimReversed bs)).1.reverse = true := by
  fun_induction trimReversed bs with
  | case1 => exact absurd rfl h
  | case2 b hb => exact absurd rfl h
  | case3 b hb =>
      obtain ⟨hslash, hdot⟩ := not_or.mp hb
      simp [splitLast, moves, hslash, hdot]
  | case4 c rest ih => exact ih h
  | case5 b c rest hb hdot ih => exact ih h
  | case6 b c rest hb hdot =>
      -- a last octet `.` has another octet of its name in front of it
      by_cases hc : c = slash
      · have hb' : b ≠ dot := fun hb' => hdot ⟨hb', hc⟩
        simp [splitLast, moves, hb, hc, hb']
      · have hlength : ∀ name : Bytes, name ++ [c, b] ≠ [dot] := by
          intro name heq
          have := congrArg List.length heq
          simp at this
        simp [splitLast, moves, hb, hc, hlength]

theorem stepsOf_splitLast {bs : Bytes} (h : moves (splitLast bs).1.reverse = true) :
    stepsOf bs.reverse = stepsOf (splitLast bs).2.reverse ++ [(splitLast bs).1.reverse] := by
  -- the last name has no separator in it, so it is one step
  have hname : stepsOf (splitLast bs).1.reverse = [(splitLast bs).1.reverse] := by
    have hnone : slash ∉ (splitLast bs).1.reverse := by
      intro hmem
      have hall : (bs.takeWhile (· ≠ slash)).all (· ≠ slash) = true := List.all_takeWhile
      simpa using List.all_eq_true.mp hall slash (List.mem_reverse.mp hmem)
    rw [stepsOf, splitSlash_of_notMem hnone, List.filter_cons_of_pos h, List.filter_nil]
  have hsplit : (splitLast bs).1 ++ bs.dropWhile (· ≠ slash) = bs := List.takeWhile_append_dropWhile
  cases hrest : bs.dropWhile (· ≠ slash) with
  | nil =>
      have hbefore : (splitLast bs).2 = [] := by simp only [splitLast, hrest, List.drop_nil]
      rw [hrest, List.append_nil] at hsplit
      rw [hbefore, List.reverse_nil, stepsOf_nil, List.nil_append, ← hname, hsplit]
  | cons x rest =>
      have hx : x = slash := by
        have hstop := List.head?_dropWhile_not (· ≠ slash) bs
        rw [hrest] at hstop
        simpa using hstop
      have hbefore : (splitLast bs).2 = rest := by simp only [splitLast, hrest, List.drop_one, List.tail_cons]
      rw [hrest, hx] at hsplit
      have hreverse : bs.reverse = rest.reverse ++ slash :: (splitLast bs).1.reverse := by
        simpa using (congrArg List.reverse hsplit).symm
      rw [hreverse, stepsOf_append, hname, hbefore]

/-! ## Fronts of paths -/

theorem anchor_cons (b : UInt8) (bs : Bytes) :
    anchor ⟨b :: bs⟩ = if b = slash then [slash]
      else if b = dot ∧ (bs = [] ∨ bs.head? = some slash) then [dot] else [] := rfl

theorem isAbsolute_cons (b : UInt8) (bs : Bytes) : isAbsolute ⟨b :: bs⟩ = decide (b = slash) := by
  rw [Bool.eq_iff_iff]
  simp [isAbsolute]

/-- **The front of a path**: nothing, the root, or the `.` that a relative path may start with. -/
theorem anchor_cases (p : Path) :
    p.anchor ++ p.body = p.bytes ∧
    ((p.anchor = [] ∧ p.isAbsolute = false) ∨ (p.anchor = [slash] ∧ p.isAbsolute = true) ∨
      (p.anchor = [dot] ∧ p.isAbsolute = false ∧ (p.body = [] ∨ p.body.head? = some slash))) := by
  obtain ⟨bs⟩ := p
  cases bs with
  | nil => exact ⟨rfl, Or.inl ⟨rfl, rfl⟩⟩
  | cons b bs =>
      rw [body, anchor_cons, isAbsolute_cons]
      by_cases hb : b = slash
      · simp [hb]
      · by_cases hdot : b = dot ∧ (bs = [] ∨ bs.head? = some slash)
        · rw [if_neg hb, if_pos hdot, hdot.1]
          exact ⟨rfl, Or.inr (Or.inr ⟨rfl, by decide, hdot.2⟩)⟩
        · rw [if_neg hb, if_neg hdot, decide_eq_false hb]
          exact ⟨rfl, Or.inl ⟨rfl, rfl⟩⟩

/-- The front, `p.anchor`, leads nowhere. -/
theorem stepsOf_anchor_append {p : Path} {bs : Bytes} (h : bs <+: p.body) :
    stepsOf (p.anchor ++ bs) = stepsOf bs := by
  obtain ⟨_, hanchor | hanchor | ⟨hanchor, _, hbody⟩⟩ := p.anchor_cases
  · rw [hanchor.1, List.nil_append]
  · rw [hanchor.1, List.singleton_append, stepsOf_slash_cons]
  · rw [hanchor]
    cases bs with
    | nil => simp
    | cons b bs =>
        obtain ⟨more, hmore⟩ := h
        have hb : b = slash := by
          rcases hbody with hnil | hslash
          · rw [hnil] at hmore
            cases hmore
          · rw [← hmore] at hslash
            exact Option.some_inj.mp hslash
        rw [hb, stepsOf_append, stepsOf_dot, stepsOf_slash_cons, List.nil_append]

theorem steps_eq_body (p : Path) : p.steps = stepsOf p.body := by
  rw [steps, ← p.anchor_cases.1, stepsOf_anchor_append (List.prefix_refl _)]

/-! ## Parents and joins -/

/-- A `parent` is the front of the path with a shorter body. -/
theorem exists_parent_eq {p q : Path} (h : p.parent = some q) :
    (p.anchor = [dot] ∧ p.steps = [] ∧ q = ⟨[]⟩) ∨
    (∃ bs, bs <+: p.body ∧ q = ⟨p.anchor ++ bs⟩ ∧ stepsOf bs = p.steps.dropLast) := by
  have hsteps := stepsOf_trimReversed p.body.reverse
  rw [List.reverse_reverse, ← steps_eq_body] at hsteps
  unfold parent at h
  split at h
  · rename_i hnil
    split at h
    · rename_i hdot
      cases h
      rw [hnil] at hsteps
      exact Or.inl ⟨hdot, hsteps.symm.trans stepsOf_nil, rfl⟩
    · cases h
  · rename_i hne
    cases h
    have hne : trimReversed p.body.reverse ≠ [] := hne
    refine Or.inr ⟨_, ?_, rfl, ?_⟩
    · -- what is left of the body was in front of its last name
      have hbefore : (splitLast (trimReversed p.body.reverse)).2 <:+ p.body.reverse :=
        ((List.drop_suffix _ _).trans (List.dropWhile_suffix _)).trans (trimReversed_suffix _)
      have hprefix := List.reverse_prefix.mpr ((trimReversed_suffix _).trans hbefore)
      rwa [List.reverse_reverse] at hprefix
    · rw [stepsOf_trimReversed, ← hsteps, stepsOf_splitLast (moves_splitLast hne), List.dropLast_concat]

/-- **The parent lacks the last step**, if there is one: `q.steps = p.steps.dropLast`. -/
theorem steps_parent {p q : Path} (h : p.parent = some q) : q.steps = p.steps.dropLast := by
  rcases exists_parent_eq h with ⟨_, hnone, rfl⟩ | ⟨bs, hprefix, rfl, hsteps⟩
  · rw [hnone]
    exact stepsOf_nil
  · rw [← hsteps]
    exact stepsOf_anchor_append hprefix

theorem isAbsolute_parent {p q : Path} (h : p.parent = some q) : q.isAbsolute = p.isAbsolute := by
  obtain ⟨happend, hanchor⟩ := p.anchor_cases
  rcases exists_parent_eq h with ⟨hdot, _, rfl⟩ | ⟨bs, ⟨more, hmore⟩, rfl, _⟩
  · rcases hanchor with ⟨hnil, _⟩ | ⟨hslash, _⟩ | ⟨_, habs, _⟩
    · rw [hnil] at hdot; cases hdot
    · rw [hslash] at hdot; exact absurd hdot (by decide)
    · rw [habs]; rfl
  · rcases hanchor with ⟨hnil, habs⟩ | ⟨hslash, habs⟩ | ⟨hdot, habs, _⟩
    · rw [hnil] at happend ⊢
      rw [habs]
      cases bs with
      | nil => rfl
      | cons b bs =>
          rw [isAbsolute, ← happend, ← hmore] at habs
          exact habs
    · rw [habs, hslash]; rfl
    · rw [habs, hdot]; rfl

/-- **Parents have the first steps**, `q.steps <+: p.steps`, and are as absolute as the path. -/
theorem steps_up? {p q : Path} {n : Nat} (h : p.up? n = some q) :
    q.steps <+: p.steps ∧ q.isAbsolute = p.isAbsolute := by
  induction n generalizing q with
  | zero =>
      cases h
      exact ⟨List.prefix_refl _, rfl⟩
  | succ n ih =>
      obtain ⟨mid, hmid, hparent⟩ := Option.bind_eq_some_iff.mp h
      obtain ⟨hsteps, habs⟩ := ih hmid
      constructor
      · rw [steps_parent hparent]
        exact (List.dropLast_prefix _).trans hsteps
      · rw [isAbsolute_parent hparent, habs]

/-- **Joined steps**: `(p.join name).steps = p.steps ++ name.steps`. -/
theorem steps_join {name : Path} (hname : name.isAbsolute = false) (p : Path) :
    (p.join name).steps = p.steps ++ name.steps := by
  unfold join steps
  rw [hname]
  cases hlast : p.bytes.getLast? with
  | none => simp [List.getLast?_eq_none_iff.mp hlast]
  | some b =>
      obtain ⟨front, hfront⟩ := List.getLast?_eq_some_iff.mp hlast
      by_cases hb : b = slash
      · simp [hfront, hb]
      · simp [hb]

theorem isAbsolute_join {name : Path} (hname : name.isAbsolute = false) (p : Path) :
    (p.join name).isAbsolute = p.isAbsolute := by
  unfold join
  rw [hname]
  cases hlast : p.bytes.getLast? with
  | none =>
      have hnil := List.getLast?_eq_none_iff.mp hlast
      simpa [isAbsolute, hnil] using hname
  | some b =>
      obtain ⟨front, hfront⟩ := List.getLast?_eq_some_iff.mp hlast
      by_cases hb : b = slash
      · cases front <;> simp [isAbsolute, hfront, hb]
      · cases front <;> simp [isAbsolute, hfront, hb]

end TestHarness.Path
