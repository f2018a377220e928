import Mathlib.Data.String.Basic
import TestHarness.Proofs.Text.Utf8

/-!
# Texts in the order of their octets

Texts are compared character by character, and their encodings octet by octet. The two orders are the same
(`encode_lt_encode_iff`): of two characters the one with the smaller code point has the smaller octet where
their octets first differ (`Sequence.append_lt`).
-/

namespace TestHarness.Utf8

/-- **A smaller character**, `m < n`, has smaller octets, whatever follows. -/
theorem Sequence.append_lt {bs bs' : Bytes} {m n : Nat} (h : Sequence bs m) (h' : Sequence bs' n)
    (hlt : m < n) (rest rest' : Bytes) : bs ++ rest < bs' ++ rest' := by
  -- of two lengths the longer has the larger first octet
  cases h <;> cases h' <;> simp only [IsTail, List.cons_append, List.nil_append, List.cons_lt_cons_iff,
    UInt8.lt_iff_toNat_lt, ← UInt8.toNat_inj] at * <;> omega

theorem flatMap_encode_lt {cs ds : List Char} (h : cs < ds) :
    cs.flatMap String.utf8EncodeChar < ds.flatMap String.utf8EncodeChar := by
  induction h with
  | nil =>
      obtain ⟨a, bs, hbs⟩ := List.exists_cons_of_ne_nil (sequence_encode _).ne_nil
      rw [List.flatMap_nil, List.flatMap_cons, hbs, List.cons_append]
      exact List.nil_lt_cons _ _
  | cons _ ih =>
      rw [List.flatMap_cons, List.flatMap_cons]
      exact List.append_left_lt ih
  | rel hlt =>
      rw [List.flatMap_cons, List.flatMap_cons]
      exact (sequence_encode _).append_lt (sequence_encode _) hlt _ _

/-- **The order of texts** is the order of their octets: `encode a < encode b` says the same as `a < b`. -/
theorem encode_lt_encode_iff (a b : String) : encode a < encode b ↔ a < b := by
  constructor
  · intro h
    rcases lt_trichotomy a b with hlt | rfl | hgt
    · exact hlt
    · exact absurd h (List.lt_irrefl _)
    · exact absurd h (List.lt_asymm (flatMap_encode_lt hgt))
  · exact flatMap_encode_lt

end TestHarness.Utf8
