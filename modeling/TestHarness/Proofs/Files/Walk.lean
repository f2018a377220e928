import TestHarness.Files.Tree
import TestHarness.Proofs.Path.Steps

/-!
# Where a path leads

In a tree without links the location that a path denotes can be told from the path alone: it is where its
steps lead from the working directory or from the root (`resolve_eq_walk`). The tree only decides whether
the path denotes anything.

A walk may turn back. What it comes to is said by two things (`settle`): the number of `..` that no step
before them accounts for, each of which leaves a directory that the walk started in or below, and the names
that are left after them. With these the end of any walk can be written down (`walk_eq_settle`), and so it
can be told whether a walk ends at or below its start (`prefix_walk_iff`).
-/

namespace TestHarness

namespace Location

/-! ## Walks -/

/-- Where one step leads: up by one for `..`, else down by `name`. -/
def step (loc : Location) (name : Bytes) : Location :=
  if name = FileTree.above then loc.dropLast else loc ++ [name]

/-- Where steps lead, one `step` after the other. -/
def walk (loc : Location) (names : List Bytes) : Location := names.foldl step loc

theorem walk_append (loc : Location) (first rest : List Bytes) :
    walk loc (first ++ rest) = walk (walk loc first) rest :=
  List.foldl_append

/-- Without `..` a walk leads down by its names. -/
theorem walk_of_not_above {names : List Bytes} (h : FileTree.above ∉ names) (loc : Location) :
    walk loc names = loc ++ names := by
  induction names generalizing loc with
  | nil => exact (List.append_nil loc).symm
  | cons name names ih =>
      rw [List.mem_cons, not_or] at h
      obtain ⟨hname, hnames⟩ := h
      have hstep : step loc name = loc ++ [name] := if_neg fun heq => hname heq.symm
      calc walk loc (name :: names) = walk (step loc name) names := rfl
        _ = loc ++ [name] ++ names := by rw [hstep, ih hnames]
        _ = loc ++ name :: names := (List.append_cons loc name names).symm

/-! ## Turning back -/

/-- One step more: a `..` takes back the name before it, or leads out if there is none. -/
def turn (s : Nat × List Bytes) (name : Bytes) : Nat × List Bytes :=
  if name = FileTree.above then
    if s.2 = [] then (s.1 + 1, []) else (s.1, s.2.dropLast)
  else (s.1, s.2 ++ [name])

/-- **What steps come to**: how many `..` among them lead out of where they start, and the names after. -/
def settle (names : List Bytes) : Nat × List Bytes := names.foldl turn (0, [])

/-- The location that is left after so many `..`, with names below it. -/
def outAndIn (loc : Location) (s : Nat × List Bytes) : Location := loc.take (loc.length - s.1) ++ s.2

theorem step_outAndIn (loc : Location) (s : Nat × List Bytes) (name : Bytes) :
    step (outAndIn loc s) name = outAndIn loc (turn s name) := by
  obtain ⟨out, inner⟩ := s
  unfold step turn outAndIn
  by_cases hname : name = FileTree.above
  · rw [if_pos hname, if_pos hname]
    by_cases hinner : inner = []
    · -- the names are used up, so one more name of the location goes
      have hout : loc.length - (out + 1) = min (loc.length - out) loc.length - 1 := by omega
      simp only [hinner, if_true, List.append_nil]
      rw [List.dropLast_eq_take, List.take_take, List.length_take, hout]
      congr 1
      omega
    · simp only [hinner, if_false]
      exact List.dropLast_append_of_ne_nil hinner
  · rw [if_neg hname, if_neg hname]
    exact List.append_assoc _ _ _

/-- **The end of a `walk`** hangs on the steps by what they come to, `settle names`, and on nothing else. -/
theorem walk_eq_settle (loc : Location) (names : List Bytes) :
    walk loc names = loc.take (loc.length - (settle names).1) ++ (settle names).2 := by
  have hrun : ∀ s, walk (outAndIn loc s) names = outAndIn loc (names.foldl turn s) := by
    induction names with
    | nil => exact fun s => rfl
    | cons name names ih =>
        intro s
        calc walk (outAndIn loc s) (name :: names) = walk (step (outAndIn loc s) name) names := rfl
          _ = outAndIn loc (names.foldl turn (turn s name)) := by rw [step_outAndIn, ih]
  have hstart : outAndIn loc (0, []) = loc := by simp [outAndIn]
  have h := hrun (0, [])
  rwa [hstart] at h

/-- The first `..` takes back `a`, the second leads out. -/
example : settle (Path.ofString "a/../../b").steps = (1, [(Path.ofString "b").bytes]) := by decide

/-- **A walk ends at or below its start**, `loc <+: walk loc names`, exactly if the names that it is led out
    of are the first ones that it goes into again. -/
theorem prefix_walk_iff (loc : Location) (names : List Bytes) :
    loc <+: walk loc names ↔ loc.drop (loc.length - (settle names).1) <+: (settle names).2 := by
  rw [walk_eq_settle]
  generalize loc.length - (settle names).1 = kept
  calc loc <+: loc.take kept ++ (settle names).2
      ↔ loc.take kept ++ loc.drop kept <+: loc.take kept ++ (settle names).2 := by
        rw [List.take_append_drop]
    _ ↔ _ := List.prefix_append_right_inj _

end Location

namespace FileTree

open Location

/-! ## Paths -/

/-- A name is followed to where it leads, `step loc name`, if it leads on. -/
theorem follow_eq_ok {t : FileTree} {loc next : Location} {name : Bytes} (h : t.follow loc name = .ok next) :
    next = if Path.moves name then step loc name else loc := by
  have hmoves : Path.moves name = true ↔ ¬ (name = [] ∨ name = here) := by
    simp [Path.moves, here]
  unfold follow at h
  split at h
  · split at h
    · rename_i hstays
      cases h
      rw [if_neg fun hm => hmoves.mp hm hstays]
    · rename_i hstays
      rw [if_pos (hmoves.mpr hstays), step]
      split at h
      · rename_i habove
        cases h
        rw [if_pos habove]
      · rename_i habove
        rw [if_neg habove]
        split at h
        · cases h; rfl
        · cases h
  · cases h

theorem foldlM_follow {t : FileTree} {loc last : Location} {names : List Bytes}
    (h : names.foldlM t.follow loc = .ok last) : last = walk loc (names.filter Path.moves) := by
  -- by induction on the names, as the walk takes them one by one
  induction names generalizing loc with
  | nil =>
      cases h
      rfl
  | cons name names ih =>
      rw [List.foldlM_cons] at h
      cases hfollow : t.follow loc name with
      | error fault =>
          rw [hfollow] at h
          cases h
      | ok next =>
          rw [hfollow] at h
          rw [ih h, follow_eq_ok hfollow]
          by_cases hmoves : Path.moves name = true
          · rw [if_pos hmoves, List.filter_cons_of_pos hmoves]
            rfl
          · rw [if_neg hmoves, List.filter_cons_of_neg hmoves]

/-- **A path leads where its `steps` lead**, if it leads anywhere. -/
theorem resolve_eq_walk {t : FileTree} {cwd loc : Location} {p : Path} (h : t.resolve cwd p = .ok loc) :
    loc = walk (origin cwd p) p.steps := by
  unfold resolve at h
  split at h
  · cases h
  · split at h
    · cases h
    · exact foldlM_follow h

end FileTree

end TestHarness
