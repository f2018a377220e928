import TestHarness.Output
import TestHarness.Proofs.Files.Stream
import TestHarness.Proofs.Text.Scrub

/-!
# Finished output

What `Output.finish` makes of an output and the redirected files of a test, said once for all callers:

* its text is the scrubbed text of the test followed by the sections in the order of their files
  (`finish_fst`), and it may be scrubbed section by section (`scrub_append_sections`), since a header
  starts with a rule or a line end and ends its line;
* its notices are the faults of the files in order, then the caveat on substitution, then the error on
  NULs (`finish_snd`).
-/

namespace TestHarness

namespace Section

/-- **What a `header` is**: `label` and a colon between two rules, each of which is the character `#`,
    `width` times, on a line of its own. -/
theorem header_eq (label : String) (width : Nat) :
    header label width
      = String.ofList (List.replicate width '#') ++ "\n" ++ label ++ ":\n"
        ++ String.ofList (List.replicate width '#') ++ "\n" := rfl

/-- A `header` starts with its rule, or with a line end if the rule is empty. -/
theorem startsFresh_header (label : String) (width : Nat) (rest : List Char) :
    Scrub.StartsFresh ((header label width).toList ++ rest) := by
  rw [header_eq]
  simp only [String.toList_append, String.toList_ofList, List.append_assoc]
  cases width with
  | zero => exact Scrub.startsFresh_cons (by decide) (by decide) _
  | succ n => exact Scrub.startsFresh_cons (by decide) (by decide) _

end Section

namespace Output

/-! ## Sections -/

/-- The header of a file's section, with the `label` that names the file. -/
theorem header_label (path : Path) (width : Nat) :
    Section.header (label path) width
      = String.ofList (List.replicate width '#') ++ "\n" ++ ("Redirected output " ++ path.display) ++ ":\n"
        ++ String.ofList (List.replicate width '#') ++ "\n" :=
  Section.header_eq (label path) width

/-- The text of a file's section: `unavailable` for a missing file, or the stream's `text`. -/
def bodyText (files : FileView) (path : Path) : String :=
  match files path with
  | none => unavailable
  | some stream => stream.text

theorem bodyText_eq (files : FileView) (path : Path) :
    bodyText files path
      = (files path).elim "FILE UNAVAILABLE\n" fun stream => stream.readText.1 := by
  unfold bodyText
  cases files path with
  | none => rfl
  | some stream => exact (congrArg Prod.fst stream.readText_eq).symm

/-- What is wrong with a redirected file, as the status that the test gets for it: `fileTimeout`, or the
    stream's `fault?`. -/
def fault? (files : FileView) (path : Path) : Option Status :=
  match files path with
  | none => some fileTimeout
  | some stream => stream.fault?

theorem body_eq (files : FileView) (path : Path) :
    body files path = (bodyText files path, (fault? files path).toList.map Notice.status) := by
  unfold body bodyText fault?
  cases files path with
  | none => rfl
  | some stream => exact stream.readText_eq

theorem fileSection_eq (files : FileView) (width : Nat) (path : Path) :
    fileSection files width path = Section.header (label path) width ++ bodyText files path := by
  rw [fileSection, body_eq]

/-- The sections of the files, one `fileSection` after the other. -/
def sections (files : FileView) (width : Nat) (paths : List Path) : String :=
  String.join (paths.map (fileSection files width))

theorem sections_cons (files : FileView) (width : Nat) (path : Path) (paths : List Path) :
    sections files width (path :: paths)
      = Section.header (label path) width ++ (bodyText files path ++ sections files width paths) := by
  rw [sections, List.map_cons, String.join_cons, fileSection_eq, String.append_assoc]
  rfl

/-- **Each file adds exactly its section**, and its `fault?` if it has one, in the order of the files. -/
theorem appendSections_eq (files : FileView) (width : Nat) (output : String) (paths : List Path) :
    appendSections files width output paths
      = (output ++ sections files width paths, (paths.filterMap (fault? files)).map Notice.status) := by
  induction paths generalizing output with
  | nil => simp [appendSections, sections]
  | cons path paths ih =>
      rw [appendSections, ih, sections_cons, fileSection_eq, body_eq]
      simp only [String.append_assoc]
      cases hf : fault? files path with
      | none => rw [List.filterMap_cons_none hf]; rfl
      | some s => rw [List.filterMap_cons_some hf]; rfl

theorem startsFresh_sections (files : FileView) (width : Nat) (paths : List Path) :
    Scrub.StartsFresh (sections files width paths).toList := by
  cases paths with
  | nil => exact Scrub.startsFresh_nil
  | cons path paths =>
      rw [sections_cons, String.toList_append]
      exact Section.startsFresh_header _ _ _

/-! ## Scrubbing section by section -/

/-- The `sections` of the files with each header and each body scrubbed on its own. -/
def scrubbedSections (files : FileView) (width : Nat) (paths : List Path) : String :=
  String.join (paths.map fun path =>
    Scrub.scrub (Section.header (label path) width) ++ Scrub.scrub (bodyText files path))

theorem scrub_sections (files : FileView) (width : Nat) (paths : List Path) :
    Scrub.scrub (sections files width paths) = scrubbedSections files width paths := by
  induction paths with
  | nil => rfl
  | cons path paths ih =>
      -- a header ends its line, and what follows a body starts fresh
      rw [sections_cons, Section.header_eq, Scrub.scrub_append_endsLine,
        Scrub.scrub_append (startsFresh_sections files width paths), ih, ← Section.header_eq,
        scrubbedSections, scrubbedSections, List.map_cons, String.join_cons, String.append_assoc]

/-- **No NUL lies across a border**, whatever the text `output` in front of the sections ends with. -/
theorem scrub_append_sections (output : String) (files : FileView) (width : Nat) (paths : List Path) :
    Scrub.scrub (output ++ sections files width paths)
      = Scrub.scrub output ++ scrubbedSections files width paths := by
  rw [Scrub.scrub_append (startsFresh_sections files width paths), scrub_sections]

/-! ## All steps -/

theorem repairNul_eq (output : String) :
    repairNul output = (Scrub.scrub output, decide (Scrub.HasNul output)) := by
  unfold repairNul
  by_cases h : Scrub.HasNul output
  · rw [if_pos ((Scrub.needed_iff output).mpr h), Scrub.apply_eq_scrub, decide_eq_true h]
  · rw [if_neg (fun hn => h ((Scrub.needed_iff output).mp hn)), Scrub.scrub_eq_self h,
      decide_eq_false h]

/-- **The finished text** is `scrub` of `output` and the `sections`. -/
theorem finish_fst (files : FileView) (paths : List Path) (width : Nat) (replacedInvalid : Bool)
    (output : String) :
    (finish files paths width replacedInvalid output).1
      = Scrub.scrub (output ++ sections files width paths) := by
  simp only [finish, appendSections_eq, repairNul_eq]

/-- **The notices of finishing** are the faults of the files in order, `substitutionNotices`, and
    `nulNotices`. -/
theorem finish_snd (files : FileView) (paths : List Path) (width : Nat) (replacedInvalid : Bool)
    (output : String) :
    (finish files paths width replacedInvalid output).2
      = (paths.filterMap (fault? files)).map Notice.status ++ substitutionNotices replacedInvalid
        ++ nulNotices (decide (Scrub.HasNul (output ++ sections files width paths))) := by
  simp only [finish, appendSections_eq, repairNul_eq]

end Output

end TestHarness
