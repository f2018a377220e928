import TestHarness.Toml.Quoted

/-!
# Basic strings read back

A text can be written as a basic string in many ways: each of its characters stands for itself, if it may,
or is escaped by a letter or by its number in two, four or eight digits of base 16. Whichever way is chosen
for each character, the string reads as the text (`quoted?_spelled`). And there is always a way: quotes,
backslashes and control characters can be escaped, and all other characters stand for themselves
(`spelledText_encode`).
-/

namespace TestHarness.Toml.Quoted

/-! ## Spellings -/

/-- `Hex cs n`: the number that digits of base 16 write, each in either case. -/
inductive Hex : List Char → Nat → Prop where
  | nil : Hex [] 0
  | snoc {cs : List Char} {n d : Nat} {c : Char} : Hex cs n → d < 16 →
      c = Nat.digitChar d ∨ c = (Nat.digitChar d).toUpper → Hex (cs ++ [c]) (n * 16 + d)

/-- **Spellings of a character** in a basic string: itself, a short escape such as `\n`, or its number in
    `Hex`. -/
inductive Spelled : Char → List Char → Prop where
  | plain {c : Char} : isBasicChar c = true → Spelled c [c]
  | short {c e : Char} : shortEscape? e = some c → Spelled c ['\\', e]
  | hex2 {c x₁ x₂ : Char} : Hex [x₁, x₂] c.toNat → Spelled c ['\\', 'x', x₁, x₂]
  | hex4 {c x₁ x₂ x₃ x₄ : Char} : Hex [x₁, x₂, x₃, x₄] c.toNat →
      Spelled c ['\\', 'u', x₁, x₂, x₃, x₄]
  | hex8 {c x₁ x₂ x₃ x₄ x₅ x₆ x₇ x₈ : Char} : Hex [x₁, x₂, x₃, x₄, x₅, x₆, x₇, x₈] c.toNat →
      Spelled c ['\\', 'U', x₁, x₂, x₃, x₄, x₅, x₆, x₇, x₈]

/-- **Spellings of a text**, each of its characters `Spelled`. -/
inductive SpelledText : List Char → List Char → Prop where
  | nil : SpelledText [] []
  | cons {c : Char} {cs s spelled : List Char} :
      Spelled c s → SpelledText cs spelled → SpelledText (c :: cs) (s ++ spelled)

/-! ## Numbers -/

theorem hexValue?_digit {d : Nat} {c : Char} (hd : d < 16)
    (hc : c = Nat.digitChar d ∨ c = (Nat.digitChar d).toUpper) : Json.Literal.hexValue? c = some d := by
  have hlower : ∀ d < 16, Json.Literal.hexValue? (Nat.digitChar d) = some d := by decide
  have hupper : ∀ d < 16, Json.Literal.hexValue? (Nat.digitChar d).toUpper = some d := by decide
  rcases hc with rfl | rfl
  · exact hlower d hd
  · exact hupper d hd

theorem hexNumber?_hex {cs : List Char} {n : Nat} (h : Hex cs n) : hexNumber? cs = some n := by
  induction h with
  | nil => rfl
  | @snoc cs n d c _ hd hc ih =>
      rw [hexNumber?] at ih ⊢
      rw [List.foldlM_append, ih]
      show ((Json.Literal.hexValue? c).map (n * 16 + ·)).bind pure = _
      rw [hexValue?_digit hd hc]
      rfl

/-- Every character is the one of its number: `charOf?` undoes `toNat`. -/
theorem charOf?_toNat (c : Char) : charOf? c.toNat = some c := by
  have hvalid : c.toNat < 0xD800 ∨ (0xDFFF < c.toNat ∧ c.toNat < 0x110000) := c.valid
  rw [charOf?, if_pos hvalid, Char.ofNat_toNat]

theorem charOf?_hex {cs : List Char} {c : Char} (h : Hex cs c.toNat) :
    (hexNumber? cs).bind charOf? = some c := by
  rw [hexNumber?_hex h]
  exact charOf?_toNat c

/-! ## Reading -/

/-- **A spelled character is read as that character** by `basic?`, whatever follows it. -/
theorem basic?_spelled {c : Char} {s : List Char} (h : Spelled c s) (rest : List Char) :
    basic? (s ++ rest) = prepend (some c) (basic? rest) := by
  cases h with
  | plain hc =>
      rw [List.singleton_append, basic?, if_pos hc]
      · rintro rfl; cases hc
      · rintro _ _ _ rfl _; cases hc
      · rintro _ _ _ _ _ rfl _; cases hc
      · rintro _ _ _ _ _ _ _ _ _ rfl _; cases hc
      · rintro _ _ rfl _; cases hc
  | @short e he =>
      show basic? ('\\' :: e :: rest) = _
      rw [basic?, he]
      -- none of the letters that announce digits is a short escape
      · rintro _ _ _ rfl _; cases he
      · rintro _ _ _ _ _ rfl _; cases he
      · rintro _ _ _ _ _ _ _ _ _ rfl _; cases he
  | hex2 hx =>
      show basic? ('\\' :: 'x' :: _ :: _ :: rest) = _
      rw [basic?, charOf?_hex hx]
  | hex4 hx =>
      show basic? ('\\' :: 'u' :: _ :: _ :: _ :: _ :: rest) = _
      rw [basic?, charOf?_hex hx]
  | hex8 hx =>
      show basic? ('\\' :: 'U' :: _ :: _ :: _ :: _ :: _ :: _ :: _ :: _ :: rest) = _
      rw [basic?, charOf?_hex hx]

/-- A spelled text is read by `basic?` up to the closing quotes. -/
theorem basic?_spelledText {cs spelled : List Char} (h : SpelledText cs spelled) (rest : List Char) :
    basic? (spelled ++ '"' :: rest) = some (cs, rest) := by
  induction h with
  | nil => rw [List.nil_append, basic?]
  | cons hc _ ih =>
      rw [List.append_assoc, basic?_spelled hc, ih]
      rfl

/-- Nothing that is `Spelled` starts with quotes. -/
theorem Spelled.head_ne_quotes {c : Char} {s : List Char} (h : Spelled c s) :
    ∃ d tail, s = d :: tail ∧ d ≠ '"' := by
  cases h with
  | plain hc =>
      refine ⟨c, [], rfl, ?_⟩
      rintro rfl
      cases hc
  | short _ => exact ⟨'\\', _, rfl, by decide⟩
  | hex2 _ => exact ⟨'\\', _, rfl, by decide⟩
  | hex4 _ => exact ⟨'\\', _, rfl, by decide⟩
  | hex8 _ => exact ⟨'\\', _, rfl, by decide⟩

/-- **A spelled text between quotes** is a string of one line that `quoted?` reads as the text. -/
theorem quoted?_spelled {cs spelled : List Char} (h : SpelledText cs spelled) {rest : List Char}
    (hrest : rest.head? ≠ some '"') :
    quoted? ('"' :: (spelled ++ '"' :: rest)) = some (cs, rest) := by
  have hline : singleLine? ('"' :: (spelled ++ '"' :: rest)) = some (cs, rest) :=
    basic?_spelledText h rest
  unfold quoted?
  split
  · next tail heq =>
      -- the string would have to go on with two more quotes
      obtain ⟨_, heq⟩ := List.cons.inj heq
      cases h with
      | nil =>
          obtain ⟨_, heq⟩ := List.cons.inj heq
          rw [heq] at hrest
          exact absurd rfl hrest
      | cons hc _ =>
          obtain ⟨d, more, rfl, hd⟩ := hc.head_ne_quotes
          exact absurd (List.cons.inj heq).1 hd
  · next heq => cases heq
  · exact hline

/-! ## Writing -/

theorem hex_hexDigit {n : Nat} (h : n < 0x100) :
    Hex ['0', '0', Json.Literal.hexDigit (n / 16), Json.Literal.hexDigit n] n := by
  have hzero : Hex ['0', '0'] 0 :=
    @Hex.snoc ['0'] 0 0 '0' (@Hex.snoc [] 0 0 '0' .nil (by decide) (Or.inl rfl)) (by decide) (Or.inl rfl)
  have hhigh : Hex (['0', '0'] ++ [Json.Literal.hexDigit (n / 16)]) (0 * 16 + n / 16 % 16) :=
    hzero.snoc (Nat.mod_lt _ (by decide)) (Or.inl rfl)
  have hlow := hhigh.snoc (Nat.mod_lt n (by decide : 0 < 16)) (Or.inl rfl)
  rwa [show (0 * 16 + n / 16 % 16) * 16 + n % 16 = n by omega] at hlow

/-- **Every character can be spelled**, for one as `encodeChar` writes it. -/
theorem spelled_encodeChar (c : Char) : Spelled c (encodeChar c) := by
  unfold encodeChar
  split
  · exact .short rfl
  · exact .short rfl
  · next hquotes hback =>
      by_cases hc : isBasicChar c = true
      · rw [if_pos hc]
        exact .plain hc
      · rw [if_neg hc]
        -- what is left are control characters
        have hcontrol : c.toNat < 0x100 := by
          simp only [isBasicChar, Bool.or_eq_true, Bool.and_eq_true, decide_eq_true_eq, not_or, not_and] at hc
          by_cases hlow : 0x20 ≤ c.toNat
          · have hdelete : c.toNat = 0x7F :=
              Decidable.byContradiction fun hne => hc.2 ⟨⟨hlow, hquotes⟩, hback⟩ hne
            omega
          · omega
        exact .hex4 (hex_hexDigit hcontrol)

theorem spelledText_encode (cs : List Char) : SpelledText cs (cs.flatMap encodeChar) := by
  induction cs with
  | nil => exact .nil
  | cons c cs ih => exact .cons (spelled_encodeChar c) ih

end TestHarness.Toml.Quoted
