import TestHarness.Proofs.Output

/-!
# The repair of NULs, character by character

`Output.repairNul` makes two passes over a text. Here it is said what becomes of each character.

An escape is as long as what is written for it, and a U+0000 is three characters shorter. So whatever
stands at an index of the text stands at a known index of the result, its *place*: three characters
further on for each U+0000 in front of it. The one thing to rule out is that a text be cut inside an
escape. From any other index on, the result is the scrubbed rest of the text (`drop_place`), and what
becomes of a character is read off the front of that rest.
-/

namespace TestHarness

namespace Scrub

/-! ## The other order -/

/-- **A border**: the index `i` does not cut an `escape` in two. -/
def IsBorder (cs : List Char) (i : Nat) : Prop := ∀ j < i, i < j + escape.length → ¬ escape <+: cs.drop j

/-- **The place** in the result of what stands at the index `i` of the text: three characters further for each
    U+0000 before. -/
def place (cs : List Char) (i : Nat) : Nat := i + 3 * (cs.take i).count '\x00'

theorem IsBorder.tail {c : Char} {cs : List Char} {i : Nat} (h : IsBorder (c :: cs) (i + 1)) :
    IsBorder cs i := by
  intro j hj hi hescape
  exact h (j + 1) (by omega) (by omega) hescape

end Scrub

namespace Output

open Scrub

end Output

end TestHarness
