import TestHarness.Toml.Scalar

/-!
# Plain decimals read back

The decimal text of a natural number, as it is printed, is a scalar of TOML that reads as that number,
whatever its size (`scalar?_toDigits`). It has no sign, no underscore and no leading zero, and since it
holds nothing but digits it opens no number of another base.
-/

namespace TestHarness.Toml.Scalar

/-! ## Digits -/

theorem digitValue?_digitChar {d : Nat} (h : d < 10) : digitValue? 10 (Nat.digitChar d) = some d := by
  have hall : ∀ d < 10, digitValue? 10 (Nat.digitChar d) = some d := by decide
  exact hall d h

theorem digitChar_ne_underscore {d : Nat} (h : d < 10) : Nat.digitChar d ≠ '_' := by
  have hall : ∀ d < 10, Nat.digitChar d ≠ '_' := by decide
  exact hall d h

/-- The characters of digits are read by `digitsFrom?` as these digits. -/
theorem digitsFrom?_map {ds : List Nat} (hds : ∀ d ∈ ds, d < 10) (after : Bool)
    (hne : after = true ∨ ds ≠ []) : digitsFrom? 10 after (ds.map Nat.digitChar) = some ds := by
  induction ds generalizing after with
  | nil =>
      obtain rfl := hne.resolve_right fun h => h rfl
      rfl
  | cons d ds ih =>
      have hd : d < 10 := hds d List.mem_cons_self
      have hrest := ih (fun e he => hds e (List.mem_cons_of_mem d he)) true (Or.inl rfl)
      rw [List.map_cons, digitsFrom?, digitValue?_digitChar hd, hrest]
      intro hunderscore
      exact absurd hunderscore (digitChar_ne_underscore hd)

/-- **The digits of a number**, `Nat.toDigits 10 n`: they are below ten, they write the number, and the first
    one is zero only in the text of zero. -/
theorem exists_digits (n : Nat) : ∃ ds : List Nat, Nat.toDigits 10 n = ds.map Nat.digitChar ∧
    (∀ d ∈ ds, d < 10) ∧ ofDigits 10 ds = n ∧ (∃ d rest, ds = d :: rest ∧ (d = 0 → n = 0 ∧ rest = [])) := by
  induction n using Nat.strongRecOn with
  | ind n ih =>
      by_cases hn : n < 10
      · refine ⟨[n], Nat.toDigits_of_lt_base hn, ?_, ?_, n, [], rfl, fun h => ⟨h, rfl⟩⟩
        · intro d hd
          rw [List.mem_singleton.mp hd]
          exact hn
        · show 0 * 10 + n = n
          omega
      · -- the last digit stands behind the digits of the tenth part
        obtain ⟨ds, htext, hds, hvalue, d, rest, rfl, hfirst⟩ := ih (n / 10) (by omega)
        refine ⟨d :: rest ++ [n % 10], ?_, ?_, ?_, d, rest ++ [n % 10], rfl, ?_⟩
        · rw [Nat.toDigits_of_base_le (by decide) (by omega), htext, List.map_append]
          rfl
        · intro e he
          rcases List.mem_append.mp he with he | he
          · exact hds e he
          · rw [List.mem_singleton.mp he]
            omega
        · unfold ofDigits at hvalue ⊢
          rw [List.foldl_append, hvalue]
          show n / 10 * 10 + n % 10 = n
          omega
        · intro hzero
          have := (hfirst hzero).1
          omega

/-! ## Numbers -/

theorem wholeDigits?_toDigits (n : Nat) :
    ∃ ds, wholeDigits? (Nat.toDigits 10 n) = some ds ∧ ofDigits 10 ds = n := by
  obtain ⟨ds, htext, hds, hvalue, d, rest, rfl, hfirst⟩ := exists_digits n
  refine ⟨d :: rest, ?_, hvalue⟩
  have hread : digitsOf? 10 (Nat.toDigits 10 n) = some (d :: rest) := by
    rw [digitsOf?, htext]
    exact digitsFrom?_map hds false (Or.inr (List.cons_ne_nil d rest))
  unfold wholeDigits?
  rw [hread]
  split
  · next heq =>
      obtain ⟨rfl, hrest⟩ := List.cons.inj (Option.some.inj heq)
      rw [(hfirst rfl).2] at hrest
      cases hrest
  · rfl

theorem isDigit_of_mem (n : Nat) : ∀ c ∈ Nat.toDigits 10 n, c.isDigit = true := fun _ h =>
  Nat.isDigit_of_mem_toDigits (by decide) (by decide) h

/-- **A plain decimal is an integer**: `integer?` reads `Nat.toDigits 10 n` as `n`. -/
theorem integer?_toDigits (n : Nat) : integer? (Nat.toDigits 10 n) = some (n : Int) := by
  obtain ⟨ds, hread, hvalue⟩ := wholeDigits?_toDigits n
  -- a digit is no letter and no sign
  have hdigit := isDigit_of_mem n
  generalize Nat.toDigits 10 n = cs at hread hdigit
  have hsign : splitSign cs = (false, cs) := by
    unfold splitSign
    split
    · cases hdigit '-' List.mem_cons_self
    · cases hdigit '+' List.mem_cons_self
    · rfl
  unfold integer?
  split
  · cases hdigit 'x' (List.mem_cons_of_mem _ List.mem_cons_self)
  · cases hdigit 'o' (List.mem_cons_of_mem _ List.mem_cons_self)
  · cases hdigit 'b' (List.mem_cons_of_mem _ List.mem_cons_self)
  · rw [hsign]
    simp only [hread, Option.map_some, hvalue, Bool.false_eq_true, if_false]

/-- **A plain decimal is a scalar**: `scalar?` reads `Nat.toDigits 10 n` as `.integer n`. -/
theorem scalar?_toDigits (n : Nat) : scalar? (Nat.toDigits 10 n) = some (.integer n) := by
  have hdigit := isDigit_of_mem n
  unfold scalar?
  rw [if_neg, if_neg, integer?_toDigits]
  · intro heq
    cases hdigit 'f' (heq ▸ List.mem_cons_self)
  · intro heq
    cases hdigit 't' (heq ▸ List.mem_cons_self)

/-! ## Where a scalar ends -/

/-- A `run` goes on up to the first character that is no `isScalarChar`, unless a blank and a digit stand
    there. -/
theorem run_append {cs tail : List Char} (hcs : ∀ c ∈ cs, isScalarChar c = true)
    (hend : ∀ c, tail.head? = some c → isScalarChar c = false)
    (hdigit : ∀ c after, tail = ' ' :: c :: after → c.isDigit = false) : run (cs ++ tail) = (cs, tail) := by
  have hsplit : (cs ++ tail).takeWhile isScalarChar = cs ∧ (cs ++ tail).dropWhile isScalarChar = tail := by
    rw [List.takeWhile_append_of_pos hcs, List.dropWhile_append_of_pos hcs]
    cases tail with
    | nil => exact ⟨List.append_nil cs, rfl⟩
    | cons c after =>
        have hc : ¬ isScalarChar c = true := by rw [hend c rfl]; decide
        rw [List.takeWhile_cons_of_neg hc, List.dropWhile_cons_of_neg hc, List.append_nil]
        exact ⟨rfl, rfl⟩
  simp only [run, hsplit.1, hsplit.2]
  split
  · next c after =>
      rw [if_neg]
      rintro ⟨_, hc⟩
      rw [hdigit c after rfl] at hc
      cases hc
  · rfl

end TestHarness.Toml.Scalar
