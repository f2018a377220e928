import Mathlib.Data.List.Infix
import Mathlib.Data.List.Nodup
import TestHarness.Proofs.Text.Utf8
import TestHarness.Tester

/-!
# Redirected files

A tester with redirected output has one file per rank, and no two ranks share one
(`redirectedFiles_exact`). The file names of one tester agree up to the decimal of the rank, so what has
to be seen is that joining a name to a directory keeps the decimal. Joining may put a `/` between the two, or
nothing, or drop the directory; but which of these it does depends on the directory and on the first octet
of the name only, and the file names of one tester all start in the same way. So joining puts the same
octets in front of each of them (`Path.exists_join_front`).
-/

namespace TestHarness

/-- Joining puts the same octets, `front`, in front of all names that start in the same way. -/
theorem Path.exists_join_front (dir : Path) (first : Option UInt8) :
    ∃ front, ∀ name : Path, name.bytes.head? = first → (dir.join name).bytes = front ++ name.bytes := by
  -- what stands in front is nothing, the directory, or the directory and a separator
  by_cases habsolute : (first == some slash) = true
  · refine ⟨[], fun name hname => ?_⟩
    rw [join, isAbsolute, hname, if_pos habsolute]
    rfl
  · cases hlast : dir.bytes.getLast? with
    | none =>
        refine ⟨[], fun name hname => ?_⟩
        rw [join, isAbsolute, hname, if_neg habsolute, hlast]
        rfl
    | some b =>
        by_cases hb : b = slash
        · refine ⟨dir.bytes, fun name hname => ?_⟩
          rw [join, isAbsolute, hname, if_neg habsolute, hlast]
          simp only [hb, if_true]
        · refine ⟨dir.bytes ++ [slash], fun name hname => ?_⟩
          rw [join, isAbsolute, hname, if_neg habsolute, hlast]
          simp only [hb, if_false, List.append_assoc, List.singleton_append]

/-- A number can be read off its decimal, `Nat.toDigits 10`. -/
theorem toDigits_injective : Function.Injective (Nat.toDigits 10) := by
  intro m n h
  calc
    m = Nat.ofDigitChars 10 (Nat.toDigits 10 m) 0 := Nat.ofDigitChars_ten_toDigits.symm
    _ = Nat.ofDigitChars 10 (Nat.toDigits 10 n) 0 := by rw [h]
    _ = n := Nat.ofDigitChars_ten_toDigits

namespace Tester

variable {t : Tester} {o : Options}

/-! ## File names -/

/-- The octets of a `rankFile`: those that the ranks share, and those of the decimal. -/
theorem bytes_rankFile (t : Tester) (rank : Nat) : (t.rankFile rank).bytes
    = Utf8.encode (t.name ++ ".processor.") ++ Utf8.encode (String.ofList (Nat.toDigits 10 rank)) := by
  show Utf8.encode (t.name ++ ".processor." ++ String.ofList (Nat.toDigits 10 rank)) = _
  rw [Utf8.encode, String.toList_append, List.flatMap_append]
  rfl

/-- The `rankFile`s of one tester start in the same way. -/
theorem head?_rankFile (t : Tester) (rank : Nat) :
    (t.rankFile rank).bytes.head? = (Utf8.encode (t.name ++ ".processor.")).head? := by
  have hne : Utf8.encode (t.name ++ ".processor.") ≠ [] := by
    rw [Ne, Utf8.encode_eq_nil_iff, String.append_eq_empty_iff]
    exact fun h => absurd h.2 (by decide)
  rw [bytes_rankFile, List.head?_append_of_ne_nil _ hne]

theorem rankFile_injective {rank rank' : Nat} (h : (t.rankFile rank).bytes = (t.rankFile rank').bytes) :
    rank = rank' := by
  rw [bytes_rankFile, bytes_rankFile] at h
  have hdecimal := Utf8.encode_injective (List.append_cancel_left h)
  exact toDigits_injective (String.ofList_injective hdecimal)

/-! ## All files -/

/-- The `outputDir` is the first of the three directories that is there, and else `.`. -/
theorem outputDir_eq (t : Tester) (o : Options) : t.outputDir o
    = ([t.testDir, o.tests.outputDir, t.command.cwd].findSome? id).getD (.ofString ".") := by
  unfold outputDir
  cases t.testDir with
  | some dir => rfl
  | none =>
      cases o.tests.outputDir with
      | some dir => rfl
      | none =>
          cases t.command.cwd with
          | some dir => rfl
          | none => rfl

theorem redirectedFiles_eq (h : t.redirectOutput = true) : t.redirectedFiles o
    = (List.range (t.effectiveProcessors o)).map fun rank => (t.outputDir o).join (t.rankFile rank) := by
  rw [redirectedFiles, if_pos h]

/-- **No two ranks share a file**: the octets of the `redirectedFiles` are pairwise different. -/
theorem nodup_redirectedFiles (h : t.redirectOutput = true) :
    ((t.redirectedFiles o).map Path.bytes).Nodup := by
  obtain ⟨front, hfront⟩ :=
    (t.outputDir o).exists_join_front (Utf8.encode (t.name ++ ".processor.")).head?
  rw [redirectedFiles_eq h, List.map_map]
  refine List.nodup_range.map fun rank rank' heq => ?_
  have heq : front ++ (t.rankFile rank).bytes = front ++ (t.rankFile rank').bytes := by
    rw [← hfront _ (t.head?_rankFile rank), ← hfront _ (t.head?_rankFile rank')]
    exact heq
  exact rankFile_injective (List.append_cancel_left heq)

/-- **More ranks, more files:** the `redirectedFiles` of the first ranks stay what they are. -/
theorem redirectedFiles_prefix {t' : Tester} {o' : Options} (h : t.redirectOutput = true)
    (h' : t'.redirectOutput = true) (hname : t'.name = t.name) (hdir : t'.outputDir o' = t.outputDir o)
    (hle : t.effectiveProcessors o ≤ t'.effectiveProcessors o') :
    t.redirectedFiles o <+: t'.redirectedFiles o' := by
  have hranks : List.range (t.effectiveProcessors o) <+: List.range (t'.effectiveProcessors o') := by
    rw [← Nat.min_eq_left hle, ← List.take_range]
    exact List.take_prefix _ _
  have hfile : t'.rankFile = t.rankFile := by
    funext rank
    rw [rankFile, rankFile, hname]
  rw [redirectedFiles_eq h, redirectedFiles_eq h', hdir, hfile]
  exact hranks.map _

/-- **One file per rank.** A tester with redirected output has as many files as ranks: its own count if it has
    one, else that of the options, and never less than one. The file of the rank `i`, counted from 0, is
    `<name>.processor.<i>`, with the rank in decimal, in the first directory that is there: the tester's, that
    of the options, the command's, and else the current one. No two of the paths are written alike, whatever
    the name and the directory. And of two testers with one name and one directory, the one with fewer ranks
    has the first files of the other. -/
theorem redirectedFiles_exact (t : Tester) (o : Options) (hredirect : t.redirectOutput = true) :
    let count (t : Tester) (o : Options) := max 1 (t.processors.getD o.tests.processors).toNat
    let dir (t : Tester) (o : Options) :=
      ([t.testDir, o.tests.outputDir, t.command.cwd].findSome? id).getD (.ofString ".")
    (t.redirectedFiles o).length = count t o ∧
    (∀ rank < count t o, (t.redirectedFiles o)[rank]? = some ((dir t o).join
      (.ofString (t.name ++ ".processor." ++ String.ofList (Nat.toDigits 10 rank))))) ∧
    ((t.redirectedFiles o).map Path.bytes).Nodup ∧
    ∀ (t' : Tester) (o' : Options), t'.redirectOutput = true → t'.name = t.name → dir t' o' = dir t o →
      count t o ≤ count t' o' → t.redirectedFiles o <+: t'.redirectedFiles o' := by
  intro count dir
  have hdir : ∀ t o, t.outputDir o = dir t o := outputDir_eq
  refine ⟨?_, ?_, nodup_redirectedFiles hredirect, ?_⟩
  · rw [redirectedFiles_eq hredirect, List.length_map, List.length_range]
    rfl
  · intro rank hrank
    have hin : (List.range (t.effectiveProcessors o))[rank]? = some rank := List.getElem?_range hrank
    rw [redirectedFiles_eq hredirect, List.getElem?_map, hin, hdir]
    rfl
  · intro t' o' hredirect' hname hsame hle
    refine redirectedFiles_prefix hredirect hredirect' hname ?_ hle
    rw [hdir, hdir, hsame]

/-- The absolute name `/log` drops the directory, and eleven ranks have decimals of one and of two digits. -/
theorem redirectedFiles_of_absolute_name :
    let t : Tester := { name := "/log", command := .ofProgram [], redirectOutput := true, processors := some 0 }
    let t' := { t with processors := none }
    let o : Options := { tests := { processors := 11, outputDir := some (.ofString "out") } }
    t.redirectOutput = true ∧
    (t.redirectedFiles o).length = 1 ∧
    (t'.redirectedFiles o)[10]? = some (.ofString "/log.processor.10") ∧
    ((t'.redirectedFiles o).map Path.bytes).Nodup ∧
    t.redirectedFiles o <+: t'.redirectedFiles o := by
  intro t t' o
  obtain ⟨hlength, -, -, hprefix⟩ := redirectedFiles_exact t o rfl
  obtain ⟨-, hget, hnodup, -⟩ := redirectedFiles_exact t' o rfl
  have hjoin : (Path.ofString "out").join
      (.ofString ("/log" ++ ".processor." ++ String.ofList (Nat.toDigits 10 10)))
        = .ofString "/log.processor.10" := by decide
  exact ⟨rfl, hlength, (hget 10 (by decide)).trans (congrArg some hjoin), hnodup,
    hprefix t' o rfl rfl rfl (by decide)⟩

end Tester

end TestHarness
