import TestHarness.Json.Value

/-!
# String literals read back

Every text can be written as a JSON string literal, and the literal reads back as that text
(`ofText?_write`). A character is written in one of three ways: as a short escape, as a unit of four
digits if it is a control character without a short escape, and as itself otherwise (`encodeChar_cases`).
Each way has one lemma about reading, and the text follows by induction on its characters.

A control character is below the surrogates, so what is written never needs a pair.
-/

namespace TestHarness.Json

namespace Literal

/-! ## One character -/

/-- **The three ways** in which `encodeChar` writes a character: by a `shortEscape?`, by a unit of four
    digits, as itself. -/
theorem encodeChar_cases (c : Char) :
    (∃ e, e ≠ 'u' ∧ shortEscape? e = some c ∧ encodeChar c = ['\\', e]) ∨
    (c.toNat < 0x20 ∧
      encodeChar c = ['\\', 'u', '0', '0', hexDigit (c.toNat / 16), hexDigit c.toNat]) ∨
    (¬ c.toNat < 0x20 ∧ c ≠ '"' ∧ c ≠ '\\' ∧ encodeChar c = [c]) := by
  have hshort : ∀ e, e ≠ 'u' → shortEscape? e = some c → encodeChar c = ['\\', e] →
      ∃ e, e ≠ 'u' ∧ shortEscape? e = some c ∧ encodeChar c = ['\\', e] :=
    fun e hu hc he => ⟨e, hu, hc, he⟩
  by_cases hquote : c = '"'
  · subst hquote; exact Or.inl (hshort '"' (by decide) rfl rfl)
  by_cases hback : c = '\\'
  · subst hback; exact Or.inl (hshort '\\' (by decide) rfl rfl)
  by_cases hline : c = '\n'
  · subst hline; exact Or.inl (hshort 'n' (by decide) rfl rfl)
  by_cases hreturn : c = '\r'
  · subst hreturn; exact Or.inl (hshort 'r' (by decide) rfl rfl)
  by_cases htab : c = '\t'
  · subst htab; exact Or.inl (hshort 't' (by decide) rfl rfl)
  by_cases hbell : c = '\x08'
  · subst hbell; exact Or.inl (hshort 'b' (by decide) rfl rfl)
  by_cases hfeed : c = '\x0c'
  · subst hfeed; exact Or.inl (hshort 'f' (by decide) rfl rfl)
  refine Or.inr ?_
  by_cases hcontrol : c.toNat < 0x20
  · exact Or.inl ⟨hcontrol, by simp [encodeChar, *]⟩
  · exact Or.inr ⟨hcontrol, hquote, hback, by simp [encodeChar, *]⟩

/-- The two `hexDigit`s of a control character write its code point after `00`. -/
theorem unit?_control {n : Nat} (h : n < 0x20) :
    unit? '0' '0' (hexDigit (n / 16)) (hexDigit n) = some n := by
  have hall : ∀ n < 0x20, unit? '0' '0' (hexDigit (n / 16)) (hexDigit n) = some n := by decide
  exact hall n h

/-! ## Reading one character -/

theorem readUnits_short {e c : Char} (hu : e ≠ 'u') (hc : shortEscape? e = some c)
    {rest after : List Char} {units : List (Nat ⊕ Char)} (h : readUnits rest = some (units, after)) :
    readUnits ('\\' :: e :: rest) = some (.inr c :: units, after) := by
  rw [readUnits]
  · rw [hc, h]
  · rintro a b c d rest' rfl
    exact absurd rfl hu

theorem readUnits_unit {a b c d : Char} {n : Nat} (hn : unit? a b c d = some n)
    {rest after : List Char} {units : List (Nat ⊕ Char)} (h : readUnits rest = some (units, after)) :
    readUnits ('\\' :: 'u' :: a :: b :: c :: d :: rest) = some (.inl n :: units, after) := by
  rw [readUnits, hn, h]

theorem readUnits_plain {c : Char} (hcontrol : ¬ c.toNat < 0x20) (hquote : c ≠ '"') (hback : c ≠ '\\')
    {rest after : List Char} {units : List (Nat ⊕ Char)} (h : readUnits rest = some (units, after)) :
    readUnits (c :: rest) = some (.inr c :: units, after) := by
  rw [readUnits]
  · rw [if_neg hcontrol, h]
  · exact hquote
  · intro _ _ _ _ _ hc _
    exact hback hc
  · intro _ _ hc _
    exact hback hc

/-- A unit below the surrogates is a character of its own for `joinUnits`. -/
theorem joinUnits_control {n : Nat} (h : n < 0x20) (units : List (Nat ⊕ Char)) :
    joinUnits (.inl n :: units) = (joinUnits units).map (Char.ofNat n :: ·) := by
  have hlow : isLowSurrogate n = false := by simp [isLowSurrogate]; omega
  have hhigh : isHighSurrogate n = false := by simp [isHighSurrogate]; omega
  -- only a high surrogate looks at what follows it
  rcases units with _ | ⟨m | d, rest⟩ <;> simp [joinUnits, hlow, hhigh]

/-! ## Whole literals -/

/-- **What was written is read** by `readUnits`, up to the closing quote and whatever follows it. -/
theorem readUnits_encode (cs rest : List Char) :
    ∃ units, readUnits (cs.flatMap encodeChar ++ '"' :: rest) = some (units, rest) ∧
      joinUnits units = some cs := by
  induction cs with
  | nil => exact ⟨[], by simp [readUnits], rfl⟩
  | cons c cs ih =>
      obtain ⟨units, hread, hjoin⟩ := ih
      rw [List.flatMap_cons, List.append_assoc]
      rcases encodeChar_cases c with ⟨e, hu, hc, he⟩ | ⟨hcontrol, he⟩ | ⟨hcontrol, hquote, hback, he⟩
      · refine ⟨.inr c :: units, ?_, by simp [joinUnits, hjoin]⟩
        rw [he]
        exact readUnits_short hu hc hread
      · refine ⟨.inl c.toNat :: units, ?_, ?_⟩
        · rw [he]
          exact readUnits_unit (unit?_control hcontrol) hread
        · rw [joinUnits_control hcontrol, hjoin, Char.ofNat_toNat]
          rfl
      · refine ⟨.inr c :: units, ?_, by simp [joinUnits, hjoin]⟩
        rw [he]
        exact readUnits_plain hcontrol hquote hback hread

end Literal

/-- A literal is one token, a `.string`, whatever follows it. -/
theorem token?_encode (cs rest : List Char) :
    token? (Literal.encode cs ++ rest) = some (.string (some (String.ofList cs)), rest) := by
  obtain ⟨units, hread, hjoin⟩ := Literal.readUnits_encode cs rest
  have hencode : Literal.encode cs ++ rest = '"' :: (cs.flatMap Literal.encodeChar ++ '"' :: rest) := by
    simp [Literal.encode]
  rw [hencode, token?, hread]
  simp [hjoin]

/-- **One token** is cut off by `tokensWithin`, after the blanks in front of it. -/
theorem tokensWithin_succ {cs rest : List Char} {token : Token} (fuel : Nat)
    (hne : cs.dropWhile isBlank ≠ []) (htoken : token? (cs.dropWhile isBlank) = some (token, rest)) :
    tokensWithin (fuel + 1) cs = (tokensWithin fuel rest).map (token :: ·) := by
  rw [tokensWithin.eq_def]
  cases hcs : cs.dropWhile isBlank with
  | nil => exact absurd hcs hne
  | cons c tail =>
      simp only [htoken]

/-- A literal stands alone: its `tokens` are the one of its text. -/
theorem tokens_encode (cs : List Char) :
    tokens (Literal.encode cs) = some [.string (some (String.ofList cs))] := by
  have hblank : (Literal.encode cs).dropWhile isBlank = Literal.encode cs := by
    simp [Literal.encode, isBlank]
  have htoken := token?_encode cs []
  rw [List.append_nil] at htoken
  -- the quotes alone make the text long enough for one token
  obtain ⟨fuel, hfuel⟩ : ∃ fuel, (Literal.encode cs).length = fuel + 1 := by
    simp [Literal.encode]
  have hend : tokensWithin fuel [] = some [] := by rw [tokensWithin]; rfl
  rw [tokens, hfuel, tokensWithin_succ fuel (by simp [Literal.encode, isBlank]) (by rw [hblank, htoken]),
    hend]
  rfl

/-- **Every text reads back** from its literal, `Literal.write text`. -/
theorem ofText?_write (text : String) :
    ofText? (Literal.write text) = some (.string (some text)) := by
  have htokens : tokens (Literal.write text).toList = some [.string (some text)] := by
    rw [Literal.write, String.toList_ofList, tokens_encode, String.ofList_toList]
  rw [ofText?, htokens]
  rfl

end TestHarness.Json
