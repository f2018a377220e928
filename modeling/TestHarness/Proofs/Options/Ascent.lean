import TestHarness.Proofs.Files.Walk
import TestHarness.Proofs.Options.Search

/-!
# Where the search leads

The search goes up by the written form of paths: from a path to its parent it takes back the last step of
the path. Where that step is a name, this leads to the directory above. Where it is `..`, it leads the other
way, into the directory that the `..` left. So what the search finds need not be above its start
(`search_descends`); `search_ascends` says when it is, and where the start is, seen from there.
-/

namespace TestHarness.Options

open FileTree

/-! ## The file -/

/-- The steps of `.testrun/config.toml`, which lead from a directory to its configuration file. -/
def configSteps : List Bytes := [Utf8.encode ".testrun", Utf8.encode "config.toml"]

theorem steps_configFileIn (dir : Path) : (configFileIn dir).steps = dir.steps ++ configSteps := by
  have hsteps : configDirectory.steps ++ configFile.steps = configSteps := by decide
  rw [configFileIn, Path.steps_join configFile_isRelative, Path.steps_join configDirectory_isRelative,
    List.append_assoc, hsteps]

theorem isAbsolute_configFileIn (dir : Path) : (configFileIn dir).isAbsolute = dir.isAbsolute := by
  rw [configFileIn, Path.isAbsolute_join configFile_isRelative, Path.isAbsolute_join configDirectory_isRelative]

section

variable {t : FileTree} {cwd location : Location} {dir start file : Path}

/-- A configuration file that is there stands in the directory that the steps of its directory lead to, at
    `configSteps`. -/
theorem resolve_configFileIn (h : t.pathExists cwd (configFileIn dir) = true) :
    t.resolve cwd (configFileIn dir) = .ok (Location.walk (origin cwd dir) dir.steps ++ configSteps) := by
  have hdown : above ∉ configSteps := by decide
  unfold pathExists at h
  cases hresolve : t.resolve cwd (configFileIn dir) with
  | error fault =>
      rw [hresolve] at h
      cases h
  | ok loc =>
      have horigin : origin cwd (configFileIn dir) = origin cwd dir := by
        rw [origin, isAbsolute_configFileIn, origin]
      rw [resolve_eq_walk hresolve, horigin, steps_configFileIn, Location.walk_append,
        Location.walk_of_not_above hdown]

/-! ## The search -/

/-- **How the start lies to what is found.** Let the search find a file. It is the configuration file of a
    directory on the way, whose path lacks some of the last steps of the start, and these steps lead from
    that directory to the start.

    So the start is below the directory by these steps if none of them is a `..`. With `..` among them, it
    is where they come to: as many levels up as `..` lead out of the directory, and then down again. The
    directory is the start or above it exactly if they go down again by the names that they were led out
    of. -/
theorem search_ascends (hstart : t.resolve cwd start = .ok location)
    (hfound : configFileFrom? (t.pathExists cwd) start = some file) :
    ∃ n dir found taken, start.up? n = some dir ∧ file = configFileIn dir ∧
      start.steps = dir.steps ++ taken ∧
      t.resolve cwd file = .ok (found ++ configSteps) ∧
      location = found.take (found.length - (Location.settle taken).1) ++ (Location.settle taken).2 ∧
      (found <+: location ↔
        found.drop (found.length - (Location.settle taken).1) <+: (Location.settle taken).2) ∧
      (above ∉ taken → location = found ++ taken) := by
  rcases search_cases (t.pathExists cwd) start with ⟨n, dir, hnear⟩ | ⟨hnone, _⟩
  · have hfile : configFileIn dir = file := Option.some_inj.mp (hnear.found.symm.trans hfound)
    obtain ⟨⟨taken, htaken⟩, habs⟩ := Path.steps_up? hnear.reached
    -- both paths are followed from one place, so the steps taken back lead from the directory to the start
    have hwalk : location = Location.walk (Location.walk (origin cwd dir) dir.steps) taken := by
      have horigin : origin cwd start = origin cwd dir := by rw [origin, origin, habs]
      rw [resolve_eq_walk hstart, ← htaken, Location.walk_append, horigin]
    refine ⟨n, dir, Location.walk (origin cwd dir) dir.steps, taken, hnear.reached, hfile.symm, htaken.symm,
      ?_, ?_, ?_, ?_⟩
    · rw [← hfile]
      exact resolve_configFileIn hnear.config
    · rw [hwalk]
      exact Location.walk_eq_settle _ _
    · rw [hwalk]
      exact Location.prefix_walk_iff _ _
    · intro hdown
      rw [hwalk]
      exact Location.walk_of_not_above hdown _
  · rw [hfound] at hnone
    cases hnone

end

/-! ## A way up and a way down -/

/-- The location of `/work`. -/
def work : Location := [(Path.ofString "work").bytes]

/-- A tree with a repository in `/work`, with directories and one empty file at paths from there. -/
def repositoryWith (dirs : List String) (file : String) : FileTree :=
  let marked := FileTree.makeDirectory {} [] (.ofString "/work/.git")
  (dirs.foldl (fun t dir => t.makeDirectory work (.ofString dir)) marked).write work (.ofString file) []

/-- The search comes from `repo/src/lib/..` through the directory `lib` to the file above. -/
theorem search_ascends_from_above :
    let t := repositoryWith ["repo/src/lib"] "repo/.testrun/config.toml"
    let start := Path.ofString "repo/src/lib/.."
    let file := Path.ofString "repo/.testrun/config.toml"
    let location := work ++ [(Path.ofString "repo").bytes, (Path.ofString "src").bytes]
    t.resolve work start = .ok location ∧ configFileFrom? (t.pathExists work) start = some file ∧
    ∃ n dir found taken, start.up? n = some dir ∧ file = configFileIn dir ∧
      start.steps = dir.steps ++ taken ∧
      t.resolve work file = .ok (found ++ configSteps) ∧
      location = found.take (found.length - (Location.settle taken).1) ++ (Location.settle taken).2 ∧
      (found <+: location ↔
        found.drop (found.length - (Location.settle taken).1) <+: (Location.settle taken).2) ∧
      (above ∉ taken → location = found ++ taken) := by
  intro t start file location
  have hstart : t.resolve work start = .ok location := rfl
  have hnear : Nearest (t.pathExists work) start 3 (.ofString "repo") := by decide +kernel
  have hfound : configFileFrom? (t.pathExists work) start = some file := hnear.found
  exact ⟨hstart, hfound, search_ascends hstart hfound⟩

/-- **The search may go down.** From `repo/sub/..`, which is `/work/repo`, it finds the file in
    `/work/repo/sub`. -/
theorem search_descends : ¬ ∀ (t : FileTree) (cwd location found : Location) (start file : Path),
    t.isDirectory cwd = true → t.resolve cwd start = .ok location → t.isDirectory location = true →
    configFileFrom? (t.pathExists cwd) start = some file → t.resolve cwd file = .ok (found ++ configSteps) →
    found <+: location := by
  intro hall
  have hnear : Nearest ((repositoryWith [] "repo/sub/.testrun/config.toml").pathExists work)
      (.ofString "repo/sub/..") 1 (.ofString "repo/sub") := by decide +kernel
  have hprefix := hall (repositoryWith [] "repo/sub/.testrun/config.toml") work
    (work ++ [(Path.ofString "repo").bytes])
    (work ++ [(Path.ofString "repo").bytes, (Path.ofString "sub").bytes])
    (.ofString "repo/sub/..") (configFileIn (.ofString "repo/sub"))
    (by decide +kernel) rfl (by decide +kernel) hnear.found rfl
  exact absurd hprefix (by decide +kernel)

end TestHarness.Options
