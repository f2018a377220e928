import TestHarness.Files.Stream
import TestHarness.Proofs.Text.Utf8

/-!
# What reading a stream comes to

`Stream.readText` gives a text and the notices that it made on the way. Both are decided by one
question: what, if anything, is wrong with the stream (`Stream.fault?`). A stream with a fault has no
text and the fault is its only notice; any other stream has the text that it encodes, its last line ended,
and no notice.

Where the stream stands does not matter, and a text that was read can be written and read again without
a change (`readText_exact`).
-/

namespace TestHarness

/-- A text whose last line is ended already, or that has none, is left as it is by `endLine`. -/
theorem Section.endLine_eq (text : String) :
    endLine text = if text = "" ∨ text.toList.getLast? = some '\n' then text else text ++ "\n" := by
  have hempty : text = "" ↔ text.toList.getLast? = none := by
    rw [List.getLast?_eq_none_iff, String.toList_eq_nil_iff]
  unfold endLine
  simp only [hempty]
  generalize text.toList.getLast? = last
  cases last with
  | none => rfl
  | some c =>
      by_cases hline : c = '\n'
      · rw [hline]; rfl
      · split
        · next h => cases h
        · next h => exact absurd (Option.some.inj h) hline
        · simp [hline]

/-- After `endLine` the last line is ended. -/
theorem Section.endLine_ended (text : String) :
    endLine text = "" ∨ (endLine text).toList.getLast? = some '\n' := by
  rw [endLine_eq]
  by_cases h : text = "" ∨ text.toList.getLast? = some '\n'
  · rw [if_pos h]
    exact h
  · rw [if_neg h, String.toList_append]
    exact Or.inr List.getLast?_concat

namespace Stream

/-- **`fault?`** — what is wrong with a stream, as the status that a test gets for it: `readError`, or
    `nonUnicode`. A stream that cannot be read is never looked at as UTF-8. -/
def fault? (s : Stream) : Option Status :=
  if s.seekFails = true ∨ s.failAt ≠ none then some readError
  else if Utf8.wellFormed s.data = true then none
  else some nonUnicode

/-- The text of a stream: empty for one with a `fault?`. -/
def text (s : Stream) : String :=
  match s.fault? with
  | some _ => ""
  | none => Section.endLine (Utf8.decodeLossy s.data)

/-- All octets can be read exactly when neither `seekFails` nor `failAt` stands in the way; the `position` of
    the stream does not matter. -/
theorem readAll?_eq (s : Stream) :
    s.readAll? = if s.seekFails = true ∨ s.failAt ≠ none then none else some s.data := by
  unfold readAll? rewind?
  by_cases hseek : s.seekFails = true
  · rw [if_pos hseek, if_pos (Or.inl hseek)]
  · rw [if_neg hseek]
    cases hfail : s.failAt with
    | none => simp [readToEnd, hseek]
    | some n => simp [readToEnd]

/-- **Reading text** gives `s.text`, and a notice of the `fault?` if there is one. -/
theorem readText_eq (s : Stream) : s.readText = (s.text, s.fault?.toList.map Notice.status) := by
  unfold readText text fault?
  rw [readAll?_eq]
  by_cases hread : s.seekFails = true ∨ s.failAt ≠ none
  · rw [if_pos hread, if_pos hread]; rfl
  · rw [if_neg hread, if_neg hread]
    by_cases hutf : Utf8.wellFormed s.data = true
    · simp [Utf8.decode?, hutf]
    · simp [Utf8.decode?, hutf]

/-! ## The three outcomes -/

/-- **`ReadsAs`** — what a stream `s` reads as: its text, and the status that is reported in place of one. -/
inductive ReadsAs (s : Stream) : String → Option Status → Prop where
  | unreadable : (s.seekFails = true ∨ s.failAt ≠ none) →
      ReadsAs s "" (some { kind := .error, message := "error reading output" })
  | illFormed : s.seekFails = false → s.failAt = none → (¬ ∃ text, s.data = Utf8.encode text) →
      ReadsAs s "" (some { kind := .error, message := "non-unicode characters in output" })
  | text {text : String} : s.seekFails = false → s.failAt = none → s.data = Utf8.encode text →
      ReadsAs s (if text = "" ∨ text.toList.getLast? = some '\n' then text else text ++ "\n") none

/-- Every stream reads as its `text` and its `fault?`. -/
theorem readsAs (s : Stream) : s.ReadsAs s.text s.fault? := by
  by_cases hread : s.seekFails = true ∨ s.failAt ≠ none
  · have hfault : s.fault? = some readError := if_pos hread
    rw [text, hfault]
    exact .unreadable hread
  · obtain ⟨hseek, hfail⟩ := not_or.mp hread
    have hseek : s.seekFails = false := Bool.eq_false_iff.mpr hseek
    have hfail : s.failAt = none := Decidable.not_not.mp hfail
    by_cases hutf : Utf8.wellFormed s.data = true
    · have hfault : s.fault? = none := by rw [fault?, if_neg hread, if_pos hutf]
      obtain ⟨text, hdata⟩ := (Utf8.wellFormed_iff _).mp hutf
      rw [Stream.text, hfault, hdata, Utf8.decodeLossy_encode, Section.endLine_eq]
      exact .text hseek hfail hdata
    · have hfault : s.fault? = some nonUnicode := by rw [fault?, if_neg hread, if_neg hutf]
      rw [text, hfault]
      exact .illFormed hseek hfail fun h => hutf ((Utf8.wellFormed_iff _).mpr h)

/-- The text of octets that can be read back: `endLine` of what they encode. -/
theorem text_of_encode {captured : Stream} (hread : ¬ (captured.seekFails ∨ captured.failAt ≠ none))
    {text : String} (hdata : captured.data = Utf8.encode text) :
    captured.fault? = none ∧ captured.text = Section.endLine text := by
  have hfault : captured.fault? = none := by
    unfold fault?
    rw [if_neg hread, hdata, if_pos (Utf8.wellFormed_encode text)]
  refine ⟨hfault, ?_⟩
  unfold Stream.text
  rw [hfault, hdata, Utf8.decodeLossy_encode]

theorem readText_of_fault {s : Stream} {status : Status} (h : s.fault? = some status) :
    s.readText = ("", [.status status]) := by
  rw [readText_eq, text, h]
  rfl

theorem readText_of_encode {s : Stream} (hread : ¬ (s.seekFails ∨ s.failAt ≠ none)) {text : String}
    (hdata : s.data = Utf8.encode text) : s.readText = (Section.endLine text, []) := by
  obtain ⟨hfault, htext⟩ := text_of_encode hread hdata
  rw [readText_eq, hfault, htext]
  rfl

/-- What was read, `s.text`, is empty or ends its last line. -/
theorem text_ended (s : Stream) : s.text = "" ∨ s.text.toList.getLast? = some '\n' := by
  unfold text
  cases s.fault? with
  | none => exact Section.endLine_ended _
  | some status => exact Or.inl rfl

/-- **Reading a stream** with `readText`, wherever it stands. If seeking or reading fails, there is no text,
    and that error is all that is reported, whatever was read before it. Else, if the octets encode no text,
    there is no text either and that is reported instead. Else the text that they encode has been read, and
    nothing is reported; a last line that is not ended has got its end.

    So what was read is empty or ends its last line, no caveat is ever made, and any stream of the octets of a
    text that was read before, if it can be read at all, gives that text again. -/
theorem readText_exact (s : Stream) :
    let fails := s.seekFails = true ∨ s.failAt ≠ none
    (∀ position, { s with position }.readText = s.readText) ∧
    (fails → s.readText = ("", [.status { kind := .error, message := "error reading output" }])) ∧
    (¬ fails → (∀ text, s.data ≠ Utf8.encode text) →
      s.readText = ("", [.status { kind := .error, message := "non-unicode characters in output" }])) ∧
    (¬ fails → ∀ text, s.data = Utf8.encode text →
      s.readText
        = (if text = "" ∨ text.toList.getLast? = some '\n' then text else text ++ "\n", [])) ∧
    (s.readText.1 = "" ∨ s.readText.1.toList.getLast? = some '\n') ∧
    (∀ caveat, .caveat caveat ∉ s.readText.2) ∧
    (∀ again : Stream, again.seekFails = false → again.failAt = none →
      again.data = Utf8.encode s.readText.1 → again.readText = (s.readText.1, [])) := by
  intro fails
  have hended : s.readText.1 = "" ∨ s.readText.1.toList.getLast? = some '\n' := by
    rw [readText_eq]
    exact s.text_ended
  refine ⟨?_, ?_, ?_, ?_, hended, ?_, ?_⟩
  · intro position
    rw [readText_eq, readText_eq]
    rfl
  · intro hfails
    exact readText_of_fault (if_pos hfails)
  · intro hread hnone
    have hill : ¬ Utf8.wellFormed s.data = true := by
      intro hwf
      obtain ⟨text, hdata⟩ := (Utf8.wellFormed_iff s.data).mp hwf
      exact hnone text hdata
    have hfault : s.fault? = some nonUnicode := by rw [fault?, if_neg hread, if_neg hill]
    exact readText_of_fault hfault
  · intro hread text hdata
    rw [readText_of_encode hread hdata, Section.endLine_eq]
  · intro caveat hmem
    rw [readText_eq] at hmem
    obtain ⟨status, _, hstatus⟩ := List.mem_map.mp hmem
    cases hstatus
  · -- the text is ended already, so reading it again adds nothing
    intro again hseek hfail hdata
    have hread : ¬ (again.seekFails = true ∨ again.failAt ≠ none) := by simp [hseek, hfail]
    rw [readText_of_encode hread hdata, Section.endLine_eq, if_pos hended]

end Stream

end TestHarness
