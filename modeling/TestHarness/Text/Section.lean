/-!
# Sections of a report

The combined output of a test is a sequence of sections: the text of the test itself, then one
labelled section per redirected file.  A header is a label between two rules; a section's text ends
its last line, so that the next header starts a line of its own.
-/

namespace TestHarness.Section

/-- The character that rules are drawn with, `#`. -/
def ruleChar : Char := '#'

/-- A rule of `width` characters. -/
def rule (width : Nat) : String := String.ofList (List.replicate width ruleChar)

/-- A section header: the label and a colon between two rules, `rule width`, each on a line of its
    own. -/
def header (label : String) (width : Nat) : String :=
  rule width ++ "\n" ++ label ++ ":\n" ++ rule width ++ "\n"

/-- The text with its last line ended by `\n`. Empty text has no line to end. -/
def endLine (text : String) : String :=
  match text.toList.getLast? with
  | none => text
  | some '\n' => text
  | some _ => text ++ "\n"

end TestHarness.Section
