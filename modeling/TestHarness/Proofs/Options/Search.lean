import TestHarness.Options.Discovery
import TestHarness.Proofs.Path

/-!
# What the search finds

The search looks at a directory, at its parent, at the parent of that, and so on. It goes past a
directory that has neither a configuration file nor a mark of a repository (`Passes`), and stops at any
other: with the file if there is one, and with nothing if there is only a mark. So what it finds is the
configuration file of the nearest directory that has one, provided that no directory before it stops the
search (`Nearest`), and `search_exact` says that it finds this and nothing else.
-/

namespace TestHarness.Options

/-! ## One directory -/

/-- **`Passes`**: the search goes past `dir`, since there is neither `.testrun/config.toml` nor any of
    `.git`, `.hg` and `.svn` in it. -/
structure Passes (pathExists : Path → Bool) (dir : Path) : Prop where
  config : pathExists ((dir.join (.ofString ".testrun")).join (.ofString "config.toml")) = false
  markers : ∀ name ∈ [".git", ".hg", ".svn"], pathExists (dir.join (.ofString name)) = false

section

variable {pathExists : Path → Bool} {dir : Path}

/-- A repository's root has one of the entries `.git`, `.hg` and `.svn`. -/
theorem isRepositoryRoot_iff :
    isRepositoryRoot pathExists dir = true ↔
      ∃ name ∈ [".git", ".hg", ".svn"], pathExists (dir.join (.ofString name)) = true := by
  have hmarkers : repositoryMarkers = [".git", ".hg", ".svn"].map Path.ofString := rfl
  rw [isRepositoryRoot, hmarkers, List.any_map]
  exact List.any_eq_true

theorem isRepositoryRoot_of_passes (h : Passes pathExists dir) : isRepositoryRoot pathExists dir = false := by
  refine Bool.eq_false_iff.mpr fun hroot => ?_
  obtain ⟨name, hmem, hthere⟩ := isRepositoryRoot_iff.mp hroot
  rw [h.markers name hmem] at hthere
  cases hthere

theorem configFileFrom?_of_config (h : pathExists (configFileIn dir) = true) :
    configFileFrom? pathExists dir = some (configFileIn dir) := by
  rw [configFileFrom?, if_pos h]

theorem configFileFrom?_of_root (h : pathExists (configFileIn dir) = false)
    (hroot : isRepositoryRoot pathExists dir = true) : configFileFrom? pathExists dir = none := by
  rw [configFileFrom?, if_neg (Bool.eq_false_iff.mp h), if_pos hroot]

theorem configFileFrom?_of_passes (h : Passes pathExists dir) :
    configFileFrom? pathExists dir = dir.parent.bind (configFileFrom? pathExists) := by
  have hconfig : pathExists (configFileIn dir) = false := h.config
  have hroot := isRepositoryRoot_of_passes h
  rw [configFileFrom?, if_neg (Bool.eq_false_iff.mp hconfig), if_neg (Bool.eq_false_iff.mp hroot)]
  split
  · rename_i hparent
    rw [hparent, Option.bind_none]
  · rename_i up hparent
    rw [hparent, Option.bind_some]

/-- **What stops the search**, `¬ Passes`, is a configuration file or, without one, a mark. -/
theorem stop_cases (h : ¬ Passes pathExists dir) :
    pathExists (configFileIn dir) = true ∨
    (pathExists (configFileIn dir) = false ∧ isRepositoryRoot pathExists dir = true) := by
  by_cases hconfig : pathExists (configFileIn dir) = true
  · exact Or.inl hconfig
  · have hconfig := Bool.eq_false_iff.mpr hconfig
    refine Or.inr ⟨hconfig, isRepositoryRoot_iff.mpr (Classical.byContradiction fun hnone => ?_)⟩
    exact h ⟨hconfig, fun name hmem => Bool.eq_false_iff.mpr fun hthere => hnone ⟨name, hmem, hthere⟩⟩

end

/-! ## The directories on the way -/

/-- The search gets past all directories before the `n`-th. -/
def PassesBelow (pathExists : Path → Bool) (start : Path) (n : Nat) : Prop :=
  ∀ j < n, ∀ dir, start.up? j = some dir → Passes pathExists dir

/-- **`Nearest`**: `dir` is the `n`-th directory on the way, `.testrun/config.toml` is there, and the search
    gets past all directories before. -/
structure Nearest (pathExists : Path → Bool) (start : Path) (n : Nat) (dir : Path) : Prop where
  reached : start.up? n = some dir
  config : pathExists ((dir.join (.ofString ".testrun")).join (.ofString "config.toml")) = true
  below : PassesBelow pathExists start n

section

variable {pathExists : Path → Bool} {start dir : Path} {n : Nat}

/-- A search that gets past `n` directories goes on at the next one, `start.up? n`. -/
theorem configFileFrom?_up (h : PassesBelow pathExists start n) :
    configFileFrom? pathExists start = (start.up? n).bind (configFileFrom? pathExists) := by
  induction n with
  | zero => rfl
  | succ n ih =>
      rw [ih fun j hj => h j (Nat.lt_succ_of_lt hj), Path.up?]
      cases hdir : start.up? n with
      | none => rfl
      | some dir => exact configFileFrom?_of_passes (h n (Nat.lt_succ_self n) dir hdir)

/-- Either the search gets past the first `n` directories, or there is a first one that stops it. -/
theorem exists_stop_or_passes (pathExists : Path → Bool) (start : Path) (n : Nat) :
    PassesBelow pathExists start n ∨ ∃ i dir, start.up? i = some dir ∧ ¬ Passes pathExists dir ∧
      PassesBelow pathExists start i := by
  induction n with
  | zero => exact Or.inl fun j hj => absurd hj (Nat.not_lt_zero j)
  | succ n ih =>
      rcases ih with hpasses | hstop
      · by_cases hnext : ∀ dir, start.up? n = some dir → Passes pathExists dir
        · refine Or.inl fun j hj => ?_
          rcases Nat.lt_or_eq_of_le (Nat.le_of_lt_succ hj) with hlt | rfl
          · exact hpasses j hlt
          · exact hnext
        · obtain ⟨dir, hstops⟩ := Classical.not_forall.mp hnext
          obtain ⟨hdir, hstops⟩ := Classical.not_imp.mp hstops
          exact Or.inr ⟨n, dir, hdir, hstops, hpasses⟩
      · exact Or.inr hstop

theorem Nearest.found (h : Nearest pathExists start n dir) :
    configFileFrom? pathExists start = some (configFileIn dir) := by
  rw [configFileFrom?_up h.below, h.reached]
  exact configFileFrom?_of_config h.config

/-- **The outcomes of a search**: a `Nearest` configuration file, or there is none. -/
theorem search_cases (pathExists : Path → Bool) (start : Path) :
    (∃ n dir, Nearest pathExists start n dir) ∨
    (configFileFrom? pathExists start = none ∧ ∀ n dir, ¬ Nearest pathExists start n dir) := by
  obtain ⟨last, hlast⟩ := start.exists_up?_eq_none
  rcases exists_stop_or_passes pathExists start last with hpasses | ⟨i, stop, hreached, hstops, hbelow⟩
  · refine Or.inr ⟨by rw [configFileFrom?_up hpasses, hlast]; rfl, fun n dir hnear => ?_⟩
    -- the directory would stand before the end, where the search gets past it
    have hfound := hnear.found
    rw [configFileFrom?_up hpasses, hlast] at hfound
    cases hfound
  · rcases stop_cases hstops with hconfig | ⟨hconfig, hroot⟩
    · exact Or.inl ⟨i, stop, hreached, hconfig, hbelow⟩
    · have hnone : configFileFrom? pathExists start = none := by
        rw [configFileFrom?_up hbelow, hreached]
        exact configFileFrom?_of_root hconfig hroot
      refine Or.inr ⟨hnone, fun n dir hnear => ?_⟩
      rw [hnear.found] at hnone
      cases hnone

end

/-! ## Which directory it is -/

theorem configDirectory_isRelative : configDirectory.isAbsolute = false := by decide

theorem configFile_isRelative : configFile.isAbsolute = false := by decide

/-- What follows the directory in the path of its configuration file has one length, that of
    `/config.toml`. -/
theorem length_configFileIn (dir : Path) :
    (configFileIn dir).bytes.length = (dir.join configDirectory).bytes.length + 12 := by
  have hname : configDirectory.bytes ≠ [] := by decide
  have hlast : (dir.join configDirectory).bytes.getLast? = configDirectory.bytes.getLast? :=
    Path.getLast?_join configDirectory_isRelative hname dir
  have hne : (dir.join configDirectory).bytes ≠ [] := by
    intro hnil
    rw [hnil] at hlast
    exact absurd hlast (by decide)
  have hslash : (dir.join configDirectory).bytes.getLast? ≠ some Path.slash := by
    rw [hlast]
    decide
  rw [configFileIn, Path.length_join configFile_isRelative, if_neg (not_or.mpr ⟨hne, hslash⟩)]
  rfl

/-- The configuration files of two directories on the way are two files: `configFileIn` is injective there. -/
theorem configFileIn_injective {start d e : Path} {i j : Nat} (hd : start.up? i = some d)
    (he : start.up? j = some e) (h : configFileIn d = configFileIn e) : i = j := by
  have hlen := length_configFileIn d
  rw [h, length_configFileIn e] at hlen
  exact Path.join_up?_injective configDirectory_isRelative hd he (Nat.add_right_cancel hlen).symm

section

variable {pathExists : Path → Bool} {start dir : Path} {n : Nat}

/-- **The search finds a directory's file** exactly where that is `Nearest`. -/
theorem configFileFrom?_eq_some_iff (hdir : start.up? n = some dir) :
    configFileFrom? pathExists start = some (configFileIn dir) ↔ Nearest pathExists start n dir := by
  refine ⟨fun hfound => ?_, Nearest.found⟩
  rcases search_cases pathExists start with ⟨m, other, hnear⟩ | ⟨hnone, _⟩
  · have hsame : configFileIn dir = configFileIn other :=
      Option.some_inj.mp (hfound.symm.trans hnear.found)
    obtain rfl := configFileIn_injective hdir hnear.reached hsame
    have hreached := hnear.reached
    rw [hdir] at hreached
    cases hreached
    exact hnear
  · rw [hfound] at hnone
    cases hnone

/-- What is looked for in `dir`: `.testrun/config.toml`, and the three marks of a repository. -/
def lookedFor (dir : Path) : List Path :=
  (dir.join (.ofString ".testrun")).join (.ofString "config.toml")
    :: [".git", ".hg", ".svn"].map fun name => dir.join (.ofString name)

theorem passes_iff : Passes pathExists dir ↔ ∀ p ∈ lookedFor dir, pathExists p = false := by
  rw [lookedFor, List.forall_mem_cons, List.forall_mem_map]
  exact ⟨fun h => ⟨h.config, h.markers⟩, fun h => ⟨h.1, h.2⟩⟩

instance (pathExists : Path → Bool) (dir : Path) : Decidable (Passes pathExists dir) :=
  decidable_of_iff (∀ p ∈ lookedFor dir, pathExists p = false) passes_iff.symm

instance (pathExists : Path → Bool) (start : Path) (n : Nat) : Decidable (PassesBelow pathExists start n) :=
  inferInstanceAs (Decidable (∀ j < n, ∀ dir ∈ start.up? j, Passes pathExists dir))

theorem nearest_iff : Nearest pathExists start n dir ↔
    start.up? n = some dir ∧
      pathExists ((dir.join (.ofString ".testrun")).join (.ofString "config.toml")) = true ∧
      PassesBelow pathExists start n :=
  ⟨fun h => ⟨h.reached, h.config, h.below⟩, fun h => ⟨h.1, h.2.1, h.2.2⟩⟩

/-- Whether a search finds the file of a directory can be evaluated, as `Nearest` is decidable. -/
instance (pathExists : Path → Bool) (start : Path) (n : Nat) (dir : Path) :
    Decidable (Nearest pathExists start n dir) := decidable_of_iff _ nearest_iff.symm

/-- **What lies above is not looked at.** Two file systems in which the same is found, among `lookedFor`, in
    every directory up to one that stops the search have the same outcome. -/
theorem configFileFrom?_congr {other : Path → Bool} (hdir : start.up? n = some dir)
    (hstop : ¬ Passes pathExists dir)
    (hsame : ∀ j ≤ n, ∀ d, start.up? j = some d → ∀ p ∈ lookedFor d, other p = pathExists p) :
    configFileFrom? other start = configFileFrom? pathExists start := by
  have hpasses : ∀ j ≤ n, ∀ d, start.up? j = some d → (Passes other d ↔ Passes pathExists d) := by
    intro j hj d hd
    rw [passes_iff, passes_iff]
    exact forall₂_congr fun p hp => by rw [hsame j hj d hd p hp]
  rcases exists_stop_or_passes pathExists start (n + 1) with hall | ⟨i, stop, hreached, hstops, hbelow⟩
  · exact absurd (hall n (Nat.lt_succ_self n) dir hdir) hstop
  · -- the first stop is not above the given one, so both searches come to it
    have hle : i ≤ n := Nat.le_of_not_lt fun hlt => hstop (hbelow n hlt dir hdir)
    have hbelow' : PassesBelow other start i := fun j hj d hd =>
      (hpasses j (Nat.le_trans (Nat.le_of_lt hj) hle) d hd).mpr (hbelow j hj d hd)
    have hconfig : other (configFileIn stop) = pathExists (configFileIn stop) :=
      hsame i hle stop hreached _ List.mem_cons_self
    rw [configFileFrom?_up hbelow, configFileFrom?_up hbelow', hreached, Option.bind_some, Option.bind_some]
    rcases stop_cases hstops with hfile | ⟨hfile, hroot⟩
    · rw [configFileFrom?_of_config hfile, configFileFrom?_of_config (hconfig.trans hfile)]
    · obtain ⟨name, hmem, hmark⟩ := isRepositoryRoot_iff.mp hroot
      have hmark' : other (stop.join (.ofString name)) = pathExists (stop.join (.ofString name)) :=
        hsame i hle stop hreached _ (List.mem_cons_of_mem _ (List.mem_map_of_mem hmem))
      have hroot' : isRepositoryRoot other stop = true :=
        isRepositoryRoot_iff.mpr ⟨name, hmem, hmark'.trans hmark⟩
      rw [configFileFrom?_of_root hfile hroot, configFileFrom?_of_root (hconfig.trans hfile) hroot']

end

/-! ## All together -/

/-- **The outcome of a search.** Let the directories on the way be the start, its parent, the parent of
    that, and so on (`start.up? n`); there is a last one.

    The search finds `.testrun/config.toml` of one of them exactly if that file is there and no directory
    before it has such a file or one of `.git`, `.hg` and `.svn`; it finds no other file, and nothing
    exactly if there is no such directory. So the root of a repository is the last directory whose file
    can be found: its own is found, one above it never. And whatever lies above the first directory with
    a configuration file or a mark does not count. -/
theorem search_exact (pathExists : Path → Bool) (start : Path) :
    let config (dir : Path) := (dir.join (.ofString ".testrun")).join (.ofString "config.toml")
    let marked (dir : Path) :=
      ∃ name ∈ [".git", ".hg", ".svn"], pathExists (dir.join (.ofString name)) = true
    (∃ n, start.up? n = none) ∧
    (∀ n dir, start.up? n = some dir →
      (configFileFrom? pathExists start = some (config dir) ↔ Nearest pathExists start n dir)) ∧
    (∀ file, configFileFrom? pathExists start = some file →
      ∃ n dir, start.up? n = some dir ∧ file = config dir) ∧
    (configFileFrom? pathExists start = none ↔ ∀ n dir, ¬ Nearest pathExists start n dir) ∧
    (∀ n root, start.up? n = some root → marked root →
      (pathExists (config root) = true → PassesBelow pathExists start n →
        configFileFrom? pathExists start = some (config root)) ∧
      ∀ m > n, ∀ above, start.up? m = some above →
        configFileFrom? pathExists start ≠ some (config above)) ∧
    (∀ n stop, start.up? n = some stop → ¬ Passes pathExists stop → ∀ other : Path → Bool,
      (∀ j ≤ n, ∀ dir, start.up? j = some dir → ∀ p ∈ lookedFor dir, other p = pathExists p) →
      configFileFrom? other start = configFileFrom? pathExists start) := by
  intro config marked
  refine ⟨start.exists_up?_eq_none, fun n dir hdir => configFileFrom?_eq_some_iff hdir, ?_, ?_, ?_, ?_⟩
  · intro file hfound
    rcases search_cases pathExists start with ⟨n, dir, hnear⟩ | ⟨hnone, _⟩
    · rw [hnear.found] at hfound
      cases hfound
      exact ⟨n, dir, hnear.reached, rfl⟩
    · rw [hfound] at hnone
      cases hnone
  · rcases search_cases pathExists start with ⟨n, dir, hnear⟩ | ⟨hnone, hno⟩
    · rw [hnear.found]
      exact iff_of_false nofun fun h => h n dir hnear
    · exact iff_of_true hnone hno
  · intro n root hroot hmark
    refine ⟨fun hconfig hbelow => Nearest.found ⟨hroot, hconfig, hbelow⟩, ?_⟩
    intro m hm above habove hfound
    -- the root would have to let the search pass
    have hpasses := ((configFileFrom?_eq_some_iff habove).mp hfound).below n hm root hroot
    obtain ⟨name, hmem, hthere⟩ := hmark
    rw [hpasses.markers name hmem] at hthere
    cases hthere
  · intro n stop hstop hstops other hsame
    exact configFileFrom?_congr hstop hstops hsame

end TestHarness.Options
