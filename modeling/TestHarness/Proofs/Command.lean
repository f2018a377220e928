import TestHarness.Command

/-!
# What the steps of building leave of a command

A command is built by steps in any order, and each of them touches one part of it (`Step.part`). What all
the steps together come to can be said without following them (`foldl_apply`): the arguments are those of
all steps one after the other, the directory is the last one, and the environment has had all settings in
order. So the order of steps counts within a part only (`foldl_apply_congr`).

The environment is the part that forgets. Setting keeps the keys strictly ascending (`Ascending.set`), and
looking a key up finds the latest setting first, as if the settings had been put in front of the environment
one by one (`get?_setAll`). With strictly ascending keys the entries are what can be looked up, and no more.
-/

namespace TestHarness

/-! ## Environments -/

namespace Environment

variable {env : Environment} {key value : Bytes}

/-- **`Ascending`** — the keys are strictly ascending, and so each of them has one value. -/
def Ascending (env : Environment) : Prop := env.Pairwise fun a b => a.1 < b.1

@[simp] theorem get?_cons (pair : Bytes × Bytes) (env : Environment) (key : Bytes) :
    get? (pair :: env) key = if key = pair.1 then some pair.2 else env.get? key := by
  unfold get?
  rw [List.lookup_cons]
  by_cases h : key = pair.1
  · simp [h]
  · simp [h, beq_eq_false_iff_ne.mpr h]

/-- `set` changes what is looked up for `key` only, wherever the entry goes. -/
theorem get?_set (env : Environment) (key value other : Bytes) :
    (env.set key value).get? other = if other = key then some value else env.get? other := by
  induction env with
  | nil => exact get?_cons _ _ _
  | cons pair rest ih =>
      obtain ⟨k, v⟩ := pair
      unfold set
      by_cases hsame : key = k
      · -- the old entry is replaced, and the new one is found in its place
        subst hsame
        by_cases hother : other = key
        · simp [hother]
        · simp [hother]
      · by_cases hlt : key < k
        · simp [hsame, hlt]
        · by_cases hother : other = key
          · subst hother
            simp [hsame, hlt, ih]
          · simp [hsame, hlt, hother, ih]

/-- **The latest setting is found first** after `setAll`, and what the environment had before comes after all
    of them. -/
theorem get?_setAll (env : Environment) (pairs : List (Bytes × Bytes)) (key : Bytes) :
    (env.setAll pairs).get? key = (pairs.reverse ++ env).lookup key := by
  unfold setAll
  induction pairs generalizing env with
  | nil => rfl
  | cons pair rest ih =>
      have hset : (env.set pair.1 pair.2).lookup key = (pair :: env).lookup key :=
        (get?_set env pair.1 pair.2 key).trans (get?_cons pair env key).symm
      rw [List.foldl_cons, ih, List.lookup_append, hset, ← List.lookup_append]
      simp only [List.reverse_cons, List.append_assoc, List.singleton_append]

theorem mem_set {pair : Bytes × Bytes} (h : pair ∈ env.set key value) :
    pair = (key, value) ∨ pair ∈ env := by
  induction env with
  | nil => exact Or.inl (List.mem_singleton.mp h)
  | cons head rest ih =>
      obtain ⟨k, v⟩ := head
      unfold set at h
      split at h
      · rcases List.mem_cons.mp h with hnew | hrest
        · exact Or.inl hnew
        · exact Or.inr (List.mem_cons_of_mem _ hrest)
      · split at h
        · exact List.mem_cons.mp h
        · rcases List.mem_cons.mp h with hhead | hset
          · exact Or.inr (hhead ▸ List.mem_cons_self)
          · exact (ih hset).imp_right (List.mem_cons_of_mem _)

/-- **`set` keeps the keys `Ascending`.** -/
theorem Ascending.set (h : env.Ascending) (key value : Bytes) : (env.set key value).Ascending := by
  induction env with
  | nil => exact List.pairwise_singleton _ _
  | cons head rest ih =>
      obtain ⟨k, v⟩ := head
      obtain ⟨hhead, hrest⟩ := List.pairwise_cons.mp h
      unfold Environment.set
      by_cases hsame : key = k
      · subst hsame
        simp only [if_true]
        exact List.pairwise_cons.mpr ⟨hhead, hrest⟩
      · by_cases hlt : key < k
        · -- the new key is below all others, which stay in order behind it
          simp only [hsame, hlt, if_true, if_false]
          apply List.pairwise_cons.mpr
          refine ⟨?_, h⟩
          intro pair hpair
          rcases List.mem_cons.mp hpair with rfl | hpair
          · exact hlt
          · exact List.lt_trans hlt (hhead pair hpair)
        · have hgt : k < key := ((Std.lt_trichotomy key k).resolve_left hlt).resolve_left hsame
          simp only [hsame, hlt, if_false]
          apply List.pairwise_cons.mpr
          refine ⟨?_, ih hrest⟩
          intro pair hpair
          rcases mem_set hpair with rfl | hpair
          · exact hgt
          · exact hhead pair hpair

theorem Ascending.setAll (h : env.Ascending) (pairs : List (Bytes × Bytes)) :
    (env.setAll pairs).Ascending := by
  unfold Environment.setAll
  induction pairs generalizing env with
  | nil => exact h
  | cons pair rest ih => exact ih (h.set pair.1 pair.2)

/-- **Entries are what can be looked up** with `get?`, since no key has two of them. -/
theorem Ascending.get?_eq_some_iff (h : env.Ascending) :
    env.get? key = some value ↔ (key, value) ∈ env := by
  induction env with
  | nil => simp [get?]
  | cons head rest ih =>
      obtain ⟨k, v⟩ := head
      obtain ⟨hhead, hrest⟩ := List.pairwise_cons.mp h
      by_cases hsame : key = k
      · subst hsame
        have hgone : (key, value) ∉ rest := by
          intro hmem
          exact List.lt_irrefl key (hhead (key, value) hmem)
        simp [hgone, eq_comm]
      · simp [hsame, ih hrest]

/-- A key above all others is `set` at the end. -/
theorem set_of_above (h : ∀ pair ∈ env, pair.1 < key) : env.set key value = env ++ [(key, value)] := by
  induction env with
  | nil => rfl
  | cons head rest ih =>
      obtain ⟨k, v⟩ := head
      have hgt : k < key := h (k, v) List.mem_cons_self
      have hne : key ≠ k := (Std.ne_of_lt hgt).symm
      have hrest : ∀ pair ∈ rest, pair.1 < key := by
        intro pair hpair
        exact h pair (List.mem_cons_of_mem _ hpair)
      unfold set
      simp only [hne, List.lt_asymm hgt, if_false, ih hrest, List.cons_append]

/-- **Entries that come after all others**, and are `Ascending`, are set at the end. -/
theorem setAll_of_ascending {pairs : List (Bytes × Bytes)} (h : Ascending (env ++ pairs)) :
    env.setAll pairs = env ++ pairs := by
  induction pairs generalizing env with
  | nil => exact (List.append_nil env).symm
  | cons pair rest ih =>
      have habove : ∀ earlier ∈ env, earlier.1 < pair.1 := by
        intro earlier hmem
        exact (List.pairwise_append.mp h).2.2 earlier hmem pair List.mem_cons_self
      have hassoc : env ++ pair :: rest = (env ++ [pair]) ++ rest := List.append_cons env pair rest
      rw [hassoc] at h ⊢
      rw [← ih h, setAll, List.foldl_cons, set_of_above habove]
      rfl

/-- From the back, `lookup` finds a key with its last entry. -/
theorem lookup_reverse_eq_some_iff {pairs : List (Bytes × Bytes)} :
    pairs.reverse.lookup key = some value ↔ ∃ before after,
      pairs = before ++ (key, value) :: after ∧ ∀ pair ∈ after, pair.1 ≠ key := by
  rw [List.lookup_eq_some_iff]
  constructor
  · rintro ⟨later, earlier, hsplit, hlater⟩
    refine ⟨earlier.reverse, later.reverse, ?_, ?_⟩
    · rw [← List.reverse_reverse pairs, hsplit]
      simp
    · intro pair hpair
      have hne : key ≠ pair.1 := bne_iff_ne.mp (hlater pair (List.mem_reverse.mp hpair))
      exact hne.symm
  · rintro ⟨before, after, rfl, hafter⟩
    refine ⟨after.reverse, before.reverse, by simp, ?_⟩
    intro pair hpair
    have hne : pair.1 ≠ key := hafter pair (List.mem_reverse.mp hpair)
    exact bne_iff_ne.mpr hne.symm

end Environment

/-! ## Steps of building -/

namespace Command

/-- The part of a command that a `Step` touches. -/
inductive Part where
  | args
  | cwd
  | env
deriving DecidableEq

namespace Step

def part : Step → Part
  | arg _ => .args
  | args _ => .args
  | cwd _ => .cwd
  | env _ _ => .env
  | envs _ => .env

/-- The arguments that a `Step` adds, in order. -/
def arguments : Step → List Bytes
  | arg value => [value]
  | args values => values
  | cwd _ => []
  | env _ _ => []
  | envs _ => []

/-- The directory that a `Step` sets, if it sets one. -/
def directories : Step → List Path
  | cwd dir => [dir]
  | arg _ => []
  | args _ => []
  | env _ _ => []
  | envs _ => []

/-- The environment variables that a `Step` sets, in order. -/
def settings : Step → List (Bytes × Bytes)
  | env key value => [(key, value)]
  | envs pairs => pairs
  | arg _ => []
  | args _ => []
  | cwd _ => []

end Step

variable {c : Command} {steps steps' : List Step}

/-- One step: `c.apply s` adds the `arguments`, takes the directory and sets the `settings`. -/
theorem apply_eq (c : Command) (s : Step) : c.apply s =
    { program := c.program
      args := c.args ++ s.arguments
      cwd := s.directories.getLast?.or c.cwd
      env := c.env.setAll s.settings } := by
  have hargs : c.args ++ [] = c.args := List.append_nil _
  cases s with
  | arg value => rfl
  | args values => rfl
  | cwd dir => rw [Step.arguments, hargs]; rfl
  | env key value => rw [Step.arguments, hargs]; rfl
  | envs pairs => rw [Step.arguments, hargs]; rfl

/-- **All steps together**: their `arguments` are added in order, the last of their `directories` counts, and
    their `settings` are set in order. -/
theorem foldl_apply (c : Command) (steps : List Step) : steps.foldl apply c =
    { program := c.program
      args := c.args ++ steps.flatMap Step.arguments
      cwd := (steps.flatMap Step.directories).getLast?.or c.cwd
      env := c.env.setAll (steps.flatMap Step.settings) } := by
  induction steps generalizing c with
  | nil =>
      have hargs : c.args ++ [] = c.args := List.append_nil _
      rw [List.flatMap_nil, hargs]
      rfl
  | cons s rest ih =>
      have hsettings : (c.env.setAll s.settings).setAll (rest.flatMap Step.settings)
          = c.env.setAll (s.settings ++ rest.flatMap Step.settings) := List.foldl_append.symm
      rw [List.foldl_cons, ih, apply_eq, hsettings]
      simp only [List.flatMap_cons, List.append_assoc, List.getLast?_append, Option.or_assoc]

/-! ## Order of steps -/

/-- Steps do what they carry, the `arguments`, `directories` and `settings`, however it is spread over
    them. -/
theorem foldl_apply_of_carried (hargs : steps'.flatMap Step.arguments = steps.flatMap Step.arguments)
    (hcwd : steps'.flatMap Step.directories = steps.flatMap Step.directories)
    (henv : steps'.flatMap Step.settings = steps.flatMap Step.settings) (c : Command) :
    steps'.foldl apply c = steps.foldl apply c := by
  rw [foldl_apply, foldl_apply, hargs, hcwd, henv]

/-- What only steps of one `part` have is found among those steps. -/
theorem flatMap_filter_part {α : Type} {f : Step → List α} {part : Part}
    (h : ∀ s : Step, s.part ≠ part → f s = []) (steps : List Step) :
    (steps.filter (·.part = part)).flatMap f = steps.flatMap f := by
  induction steps with
  | nil => rfl
  | cons s rest ih =>
      by_cases hs : s.part = part
      · simp [hs, ih]
      · simp [hs, h s hs, ih]

/-- **Only the order within a `part` counts.** -/
theorem foldl_apply_congr
    (h : ∀ part, steps'.filter (·.part = part) = steps.filter (·.part = part)) (c : Command) :
    steps'.foldl apply c = steps.foldl apply c := by
  have hpart : ∀ {α : Type} {f : Step → List α} (part : Part),
      (∀ s : Step, s.part ≠ part → f s = []) → steps'.flatMap f = steps.flatMap f := by
    intro α f part hf
    rw [← flatMap_filter_part hf, h, flatMap_filter_part hf]
  have hargs : ∀ s : Step, s.part ≠ .args → s.arguments = [] := by
    intro s hs
    cases s <;> first | rfl | exact absurd rfl hs
  have hcwd : ∀ s : Step, s.part ≠ .cwd → s.directories = [] := by
    intro s hs
    cases s <;> first | rfl | exact absurd rfl hs
  have henv : ∀ s : Step, s.part ≠ .env → s.settings = [] := by
    intro s hs
    cases s <;> first | rfl | exact absurd rfl hs
  exact foldl_apply_of_carried (hpart .args hargs) (hpart .cwd hcwd) (hpart .env henv) c

/-- Steps on different parts commute: `(c.apply s).apply s' = (c.apply s').apply s`. -/
theorem apply_comm {s s' : Step} (h : s.part ≠ s'.part) (c : Command) :
    (c.apply s).apply s' = (c.apply s').apply s := by
  show [s, s'].foldl apply c = [s', s].foldl apply c
  apply foldl_apply_congr
  intro part
  by_cases hs : s.part = part
  · -- the other step is none of this part
    have hs' : s'.part ≠ part := by
      intro hpart
      exact h (hs.trans hpart.symm)
    simp [hs, hs']
  · simp [hs, List.filter_cons]

/-- Adding arguments at once with `.args` is adding them one by one with `.arg`. -/
theorem foldl_arg (c : Command) (values : List Bytes) :
    (values.map Step.arg).foldl apply c = c.apply (.args values) := by
  show (values.map Step.arg).foldl apply c = [Step.args values].foldl apply c
  apply foldl_apply_of_carried
  · simp [List.flatMap_map, Step.arguments]
  · simp [List.flatMap_map, Step.directories]
  · simp [List.flatMap_map, Step.settings]

/-- Setting variables at once with `.envs` is setting them one by one with `.env`. -/
theorem foldl_env (c : Command) (pairs : List (Bytes × Bytes)) :
    (pairs.map fun pair => Step.env pair.1 pair.2).foldl apply c = c.apply (.envs pairs) := by
  show (pairs.map fun pair => Step.env pair.1 pair.2).foldl apply c = [Step.envs pairs].foldl apply c
  apply foldl_apply_of_carried
  · simp [List.flatMap_map, Step.arguments]
  · simp [List.flatMap_map, Step.directories]
  · simp [List.flatMap_map, Step.settings]

/-! ## Launching -/

theorem hasNul_eq_false_iff (c : Command) : c.hasNul = false ↔
    0 ∉ c.program ∧ (∀ value ∈ c.args, 0 ∉ value) ∧ (∀ dir ∈ c.cwd, 0 ∉ dir.bytes) ∧
    ∀ pair ∈ c.env, 0 ∉ pair.1 ∧ 0 ∉ pair.2 := by
  unfold hasNul octetStrings
  simp [List.any_append, List.any_flatMap]

theorem launch?_eq_some_iff {launch : Launch} : c.launch? = some launch ↔ c.hasNul = false ∧
    launch = { program := c.program, args := c.args, cwd := c.cwd, env := c.env } := by
  unfold launch?
  cases c.hasNul with
  | true => simp
  | false => simp [eq_comm]

/-! ## Built commands -/

/-- **What is built.** Any `steps`, from any `program`, build a command of that program. Its arguments are
    those of all steps, one after the other and octet for octet, its directory is the last one that was set,
    and its environment has strictly ascending keys, with exactly those entries that were the last to be set
    for their key. Handed over entry by entry it is the same environment again.

    Of the order of steps only the order within each part counts, so that steps on different parts commute;
    and arguments and variables can be given at once or one by one. Last, the command can be launched exactly
    if none of its octet strings has a NUL, and then its launch has this program, these arguments, this
    directory and this environment. -/
theorem build_exact (program : Bytes) (steps : List Step) :
    let c := build program steps
    c.program = program ∧
    c.args = steps.flatMap Step.arguments ∧
    c.cwd = (steps.flatMap Step.directories).getLast? ∧
    c.env.Ascending ∧
    (∀ key value, (key, value) ∈ c.env ↔ ∃ before after,
      steps.flatMap Step.settings = before ++ (key, value) :: after ∧
      ∀ pair ∈ after, pair.1 ≠ key) ∧
    (∀ key value, c.env.get? key = some value ↔ (key, value) ∈ c.env) ∧
    Environment.setAll [] c.env = c.env ∧
    (∀ steps', (∀ part, steps'.filter (·.part = part) = steps.filter (·.part = part)) →
      build program steps' = c) ∧
    (∀ (d : Command) (s s' : Step), s.part ≠ s'.part →
      (d.apply s).apply s' = (d.apply s').apply s) ∧
    (∀ (d : Command) (values : List Bytes),
      (values.map Step.arg).foldl apply d = d.apply (.args values)) ∧
    (∀ (d : Command) (pairs : List (Bytes × Bytes)),
      (pairs.map fun pair => Step.env pair.1 pair.2).foldl apply d = d.apply (.envs pairs)) ∧
    (∀ launch, c.launch? = some launch ↔
      (0 ∉ c.program ∧ (∀ value ∈ c.args, 0 ∉ value) ∧ (∀ dir ∈ c.cwd, 0 ∉ dir.bytes) ∧
        ∀ pair ∈ c.env, 0 ∉ pair.1 ∧ 0 ∉ pair.2) ∧
      launch = { program := c.program, args := c.args, cwd := c.cwd, env := c.env }) := by
  intro c
  have hc : c = steps.foldl apply (ofProgram program) := rfl
  rw [foldl_apply] at hc
  have henv : c.env = Environment.setAll [] (steps.flatMap Step.settings) := congrArg Command.env hc
  have hascending : c.env.Ascending := by
    rw [henv]
    exact Environment.Ascending.setAll List.Pairwise.nil _
  -- what is looked up settles the environment, since its keys are distinct
  have hget : ∀ key, c.env.get? key = (steps.flatMap Step.settings).reverse.lookup key := by
    intro key
    rw [henv, Environment.get?_setAll, List.append_nil]
  refine ⟨congrArg Command.program hc, congrArg Command.args hc, ?_, hascending, ?_, ?_,
    Environment.setAll_of_ascending hascending, ?_, ?_, foldl_arg, foldl_env, ?_⟩
  · rw [hc]
    exact Option.or_none
  · intro key value
    rw [← hascending.get?_eq_some_iff, hget, Environment.lookup_reverse_eq_some_iff]
  · intro key value
    exact hascending.get?_eq_some_iff
  · intro steps' hsteps
    exact foldl_apply_congr hsteps _
  · intro d s s' hpart
    exact apply_comm hpart d
  · intro launch
    rw [launch?_eq_some_iff, hasNul_eq_false_iff]

/-- A variable that is set in three ways, by `env` and twice by `envs`, arguments with blanks and without
    anything, and a directory that is replaced, with its steps in another order as well. -/
theorem build_of_overrides :
    let text := Utf8.encode
    let steps : List Step := [.env (text "B") (text "1"), .arg (text "a; rm -rf /"), .cwd (.ofString "/tmp"),
      .envs [(text "A", text ""), (text "B", text "2"), (text "B", text "3")],
      .args [text "", text "$(id)"], .cwd (.ofString "x")]
    let steps' : List Step := [.cwd (.ofString "/tmp"), .cwd (.ofString "x"), .arg (text "a; rm -rf /"),
      .args [text "", text "$(id)"], .env (text "B") (text "1"),
      .envs [(text "A", text ""), (text "B", text "2"), (text "B", text "3")]]
    (∀ part, steps'.filter (·.part = part) = steps.filter (·.part = part)) ∧
    (Step.arg (text "i")).part ≠ (Step.cwd (.ofString "y")).part ∧
    build (text "sh") steps' = build (text "sh") steps ∧
    (build (text "sh") (steps ++ [.arg (text "i"), .cwd (.ofString "y")])
      = build (text "sh") (steps ++ [.cwd (.ofString "y"), .arg (text "i")])) ∧
    (text "B", text "3") ∈ (build (text "sh") steps).env ∧
    (build (text "sh") steps).launch? = some
      { program := text "sh", args := [text "a; rm -rf /", text "", text "$(id)"],
        cwd := some (.ofString "x"), env := [(text "A", text ""), (text "B", text "3")] } := by
  intro text steps steps'
  have hparts : ∀ part, steps'.filter (·.part = part) = steps.filter (·.part = part) := by
    intro part
    cases part <;> rfl
  have hpart : (Step.arg (text "i")).part ≠ (Step.cwd (.ofString "y")).part := by decide
  obtain ⟨-, -, -, -, hmem, -, -, horder, hcomm, -, -, hlaunch⟩ := build_exact (text "sh") steps
  refine ⟨hparts, hpart, horder steps' hparts, ?_, ?_, ?_⟩
  · rw [build, build, List.foldl_append, List.foldl_append]
    exact hcomm _ _ _ hpart
  · apply (hmem _ _).mpr
    exact ⟨[(text "B", text "1"), (text "A", text ""), (text "B", text "2")], [], rfl, nofun⟩
  · apply (hlaunch _).mpr
    decide +kernel

end Command

end TestHarness
