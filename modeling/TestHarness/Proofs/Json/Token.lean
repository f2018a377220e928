import Mathlib.Data.List.Chain
import Mathlib.Data.List.TakeWhile
import TestHarness.Proofs.Json.Literal

/-!
# How tokens are written

`Token.Spelled` says how a token may be written, and `Laid` how a list of tokens may be laid out in a text: each
of them spelled in one of its ways, with blanks around it or none. Cutting a text into tokens gives tokens that the
text lays out (`laid_of_tokens`), and a text that lays tokens out is cut into these (`tokens_of_laid`).

The second needs a proviso. A number takes all the digits it can get, so the digits `1` and `2` side by side are one
number; but what comes after a number in a value is a comma or the end of an array or object (`Token.Beside`).

## Contents
* `Digits`, `Number`: numbers, and what cuts them off
* `Piece`, `Body`: what stands between quotes
* `Token.Spelled`: one token, and how it is cut off
* `Laid`: a whole text
-/

namespace TestHarness.Json

/-! ## Digits -/

/-- **`Digits`**: one or more decimal digits. -/
inductive Digits : List Char → Prop where
  | mk {c : Char} {cs : List Char} (h : ∀ d ∈ c :: cs, d.isDigit = true) : Digits (c :: cs)

/-- `Avoids p cs`: the text does not start with a character of the class `p`. -/
def Avoids (p : Char → Bool) (cs : List Char) : Prop := ∀ c ∈ cs.head?, p c = false

section

variable {p q : Char → Bool} {s cs rest : List Char}

theorem Avoids.mono (h : Avoids q cs) (hpq : ∀ c, q c = false → p c = false) : Avoids p cs :=
  fun c hc => hpq c (h c hc)

theorem avoids_cons {c : Char} (h : p c = false) (rest : List Char) : Avoids p (c :: rest) := by
  rintro _ ⟨⟩
  exact h

theorem avoids_append (hs : Avoids p s) (hrest : Avoids p rest) : Avoids p (s ++ rest) := by
  cases s with
  | nil => exact hrest
  | cons c s => exact avoids_cons (hs c rfl) _

theorem digits?_sound (h : digits? cs = some rest) : ∃ s, cs = s ++ rest ∧ Digits s := by
  rw [digits?] at h
  split at h
  · next hhead =>
      obtain rfl := Option.some.inj h
      refine ⟨cs.takeWhile Char.isDigit, List.takeWhile_append_dropWhile.symm, ?_⟩
      cases cs with
      | nil => cases hhead
      | cons c cs =>
          have hdigit : c.isDigit = true := hhead
          have hall := List.all_eq_true.mp (List.all_takeWhile (p := Char.isDigit) (l := c :: cs))
          rw [List.takeWhile_cons_of_pos hdigit] at hall ⊢
          exact .mk hall
  · cases h

/-- Digits are taken by `digits?` as far as they go. -/
theorem digits?_append (h : Digits s) (hrest : Avoids Char.isDigit rest) : digits? (s ++ rest) = some rest := by
  obtain ⟨hall⟩ := h
  have hdrop : (_ :: _ ++ rest).dropWhile Char.isDigit = rest.dropWhile Char.isDigit :=
    List.dropWhile_append_of_pos hall
  have hend : rest.dropWhile Char.isDigit = rest := by
    cases rest with
    | nil => rfl
    | cons c rest => exact List.dropWhile_cons_of_neg (by simp [hrest c rfl])
  rw [digits?, hdrop, hend, if_pos]
  exact hall _ List.mem_cons_self

/-! ## Numbers -/

/-- **`Whole`**, the integer part: a zero, or digits that do not start with a zero. -/
inductive Whole : List Char → Prop where
  | zero : Whole ['0']
  | digits {c : Char} {cs : List Char} (hne : c ≠ '0') (h : Digits (c :: cs)) : Whole (c :: cs)

/-- **`Fraction`**: `.` and digits, or nothing. -/
inductive Fraction : List Char → Prop where
  | absent : Fraction []
  | digits {cs : List Char} (h : Digits cs) : Fraction ('.' :: cs)

/-- **`Exponent`**: `e` or `E`, a sign or none, and digits, or nothing. -/
inductive Exponent : List Char → Prop where
  | absent : Exponent []
  | digits {e : Char} {sign cs : List Char} (he : e = 'e' ∨ e = 'E')
      (hsign : sign = [] ∨ sign = ['+'] ∨ sign = ['-']) (h : Digits cs) : Exponent (e :: (sign ++ cs))

/-- **`Number`**: `-` or no sign, and then `Whole`, `Fraction` and `Exponent`. -/
inductive Number : List Char → Prop where
  | mk {sign whole fraction exponent : List Char} (hsign : sign = [] ∨ sign = ['-']) (hwhole : Whole whole)
      (hfraction : Fraction fraction) (hexponent : Exponent exponent) :
      Number (sign ++ (whole ++ (fraction ++ exponent)))

theorem afterInteger?_sound (h : afterInteger? cs = some rest) : ∃ s, cs = s ++ rest ∧ Whole s := by
  rw [afterInteger?.eq_def] at h
  split at h
  · obtain rfl := Option.some.inj h
    exact ⟨['0'], rfl, .zero⟩
  · next hzero =>
      obtain ⟨s, rfl, hs⟩ := digits?_sound h
      refine ⟨s, rfl, ?_⟩
      cases hs with
      | mk hall => exact .digits (fun hc => hzero _ (by rw [hc]; rfl)) (.mk hall)

theorem afterFraction?_sound (h : afterFraction? cs = some rest) : ∃ s, cs = s ++ rest ∧ Fraction s := by
  rw [afterFraction?.eq_def] at h
  split at h
  · obtain ⟨s, rfl, hs⟩ := digits?_sound h
    exact ⟨'.' :: s, rfl, .digits hs⟩
  · obtain rfl := Option.some.inj h
    exact ⟨[], rfl, .absent⟩

theorem afterExponent?_sound (h : afterExponent? cs = some rest) : ∃ s, cs = s ++ rest ∧ Exponent s := by
  rw [afterExponent?.eq_def] at h
  split at h
  · split at h
    · next e _ he =>
        split at h
        · obtain ⟨s, rfl, hs⟩ := digits?_sound h
          exact ⟨e :: '+' :: s, rfl, .digits he (.inr (.inl rfl)) hs⟩
        · obtain ⟨s, rfl, hs⟩ := digits?_sound h
          exact ⟨e :: '-' :: s, rfl, .digits he (.inr (.inr rfl)) hs⟩
        · obtain ⟨s, rfl, hs⟩ := digits?_sound h
          exact ⟨e :: s, rfl, .digits he (.inl rfl) hs⟩
    · obtain rfl := Option.some.inj h
      exact ⟨[], rfl, .absent⟩
  · obtain rfl := Option.some.inj h
    exact ⟨[], rfl, .absent⟩

theorem afterNumber?_sound (h : afterNumber? cs = some rest) : ∃ s, cs = s ++ rest ∧ Number s := by
  simp only [afterNumber?, Option.bind_eq_bind, Option.bind_eq_some_iff] at h
  obtain ⟨afterWhole, hw, afterFraction, hf, he⟩ := h
  obtain ⟨fraction, rfl, hfraction⟩ := afterFraction?_sound hf
  obtain ⟨exponent, rfl, hexponent⟩ := afterExponent?_sound he
  split at hw
  · obtain ⟨whole, rfl, hwhole⟩ := afterInteger?_sound hw
    exact ⟨'-' :: (whole ++ (fraction ++ exponent)), by simp, .mk (.inr rfl) hwhole hfraction hexponent⟩
  · obtain ⟨whole, rfl, hwhole⟩ := afterInteger?_sound hw
    exact ⟨whole ++ (fraction ++ exponent), by simp, .mk (.inl rfl) hwhole hfraction hexponent⟩

/-! ## Cutting a number off -/

/-- Whether a number may go on with this character: a digit, `.`, `e` or `E`. -/
def extendsNumber (c : Char) : Bool := c.isDigit || c = '.' || c = 'e' || c = 'E'

/-- The same of an integer part and its fraction: a digit or `.`. -/
def extendsFraction (c : Char) : Bool := c.isDigit || c = '.'

theorem afterInteger?_append (h : Whole s) (hrest : Avoids Char.isDigit rest) :
    afterInteger? (s ++ rest) = some rest := by
  cases h with
  | zero => rfl
  | digits hne h =>
      rw [afterInteger?.eq_def]
      split
      · next hzero => exact absurd (List.cons.inj hzero).1 hne
      · exact digits?_append h hrest

theorem afterFraction?_append (h : Fraction s) (hrest : Avoids extendsFraction rest) :
    afterFraction? (s ++ rest) = some rest := by
  cases h with
  | absent =>
      rw [List.nil_append, afterFraction?.eq_def]
      split
      · cases hrest '.' rfl
      · rfl
  | digits h => exact digits?_append h (hrest.mono (by simp +contextual [extendsFraction]))

/-- Whether a character is a sign, `+` or `-`, which no digit is. -/
def isSign (c : Char) : Bool := c = '+' || c = '-'

theorem Digits.avoids_isSign (h : Digits s) (rest : List Char) : Avoids isSign (s ++ rest) := by
  obtain ⟨hall⟩ := h
  refine avoids_cons (Bool.eq_false_iff.mpr fun hsign => ?_) _
  have hdigit := hall _ List.mem_cons_self
  simp only [isSign, Bool.or_eq_true, decide_eq_true_eq] at hsign
  rcases hsign with rfl | rfl <;> cases hdigit

theorem afterExponent?_append (h : Exponent s) (hrest : Avoids extendsNumber rest) :
    afterExponent? (s ++ rest) = some rest := by
  cases h with
  | absent =>
      rw [List.nil_append, afterExponent?.eq_def]
      split
      · next c rest =>
          have hc : ¬ (c = 'e' ∨ c = 'E') := by
            rintro (rfl | rfl)
            · cases hrest 'e' rfl
            · cases hrest 'E' rfl
          rw [if_neg hc]
      · rfl
  | @digits e sign ds he hsign h =>
      have hdigits := digits?_append h (hrest.mono (p := Char.isDigit) (by simp +contextual [extendsNumber]))
      have hunsigned := h.avoids_isSign rest
      rw [List.cons_append, List.append_assoc, afterExponent?.eq_def]
      simp only [if_pos he]
      rcases hsign with rfl | rfl | rfl
      · rw [List.nil_append]
        split
        · next hplus => cases hunsigned '+' (by rw [hplus]; rfl)
        · next hminus => cases hunsigned '-' (by rw [hminus]; rfl)
        · exact hdigits
      · exact hdigits
      · exact hdigits

theorem afterNumber?_minus (cs : List Char) : afterNumber? ('-' :: cs)
    = (afterInteger? cs).bind fun cs => (afterFraction? cs).bind afterExponent? := rfl

theorem afterNumber?_unsigned (h : Avoids isSign cs) : afterNumber? cs
    = (afterInteger? cs).bind fun cs => (afterFraction? cs).bind afterExponent? := by
  rw [afterNumber?.eq_def]
  split
  · cases h '-' rfl
  · rfl

/-- **A number is cut off whole** by `afterNumber?`, if what follows `Avoids` all that it may go on with. -/
theorem afterNumber?_append (h : Number s) (hrest : Avoids extendsNumber rest) :
    afterNumber? (s ++ rest) = some rest := by
  cases h with
  | @mk sign whole fraction exponent hsign hwhole hfraction hexponent =>
      have hexp : Avoids extendsFraction (exponent ++ rest) := by
        refine avoids_append ?_ (hrest.mono (by simp +contextual [extendsNumber, extendsFraction]))
        cases hexponent with
        | absent => exact nofun
        | digits he _ _ => exact avoids_cons (by rcases he with rfl | rfl <;> rfl) _
      have hfrac : Avoids Char.isDigit (fraction ++ (exponent ++ rest)) := by
        refine avoids_append ?_ (hexp.mono (by simp +contextual [extendsFraction]))
        cases hfraction with
        | absent => exact nofun
        | digits _ => exact avoids_cons rfl _
      have hcut : ((afterInteger? (whole ++ (fraction ++ (exponent ++ rest)))).bind fun cs =>
          (afterFraction? cs).bind afterExponent?) = some rest := by
        rw [afterInteger?_append hwhole hfrac, Option.bind_some, afterFraction?_append hfraction hexp,
          Option.bind_some, afterExponent?_append hexponent hrest]
      simp only [List.append_assoc]
      rcases hsign with rfl | rfl
      · have hunsigned : Avoids isSign (whole ++ (fraction ++ (exponent ++ rest))) := by
          cases hwhole with
          | zero => exact avoids_cons rfl _
          | digits _ h => exact h.avoids_isSign _
        rw [List.nil_append, afterNumber?_unsigned hunsigned, hcut]
      · rw [List.cons_append, List.nil_append, afterNumber?_minus, hcut]

/-! ## String literals -/

namespace Literal

/-- **A `Piece` of a literal**: a character as it is, a `shortEscape?`, or a `unit?` of four digits. -/
inductive Piece : Nat ⊕ Char → List Char → Prop where
  | plain {c : Char} (hcontrol : ¬ c.toNat < 0x20) (hquote : c ≠ '"') (hback : c ≠ '\\') : Piece (.inr c) [c]
  | short {e c : Char} (h : shortEscape? e = some c) : Piece (.inr c) ['\\', e]
  | unit {a b c d : Char} {n : Nat} (h : unit? a b c d = some n) : Piece (.inl n) ['\\', 'u', a, b, c, d]

/-- **`Body`**: the pieces between the quotes, one after the other. -/
inductive Body : List (Nat ⊕ Char) → List Char → Prop where
  | nil : Body [] []
  | cons {u : Nat ⊕ Char} {units : List (Nat ⊕ Char)} {piece s : List Char} (hpiece : Piece u piece)
      (h : Body units s) : Body (u :: units) (piece ++ s)

variable {units : List (Nat ⊕ Char)}

theorem readUnits_sound (h : readUnits cs = some (units, rest)) : ∃ s, cs = s ++ '"' :: rest ∧ Body units s := by
  fun_induction readUnits cs generalizing units with
  | case1 => cases h
  | case2 tail =>
      cases h
      exact ⟨[], rfl, .nil⟩
  | case3 a b c d tail n units' after hread hunit ih =>
      cases h
      obtain ⟨s, rfl, hs⟩ := ih hread
      exact ⟨'\\' :: 'u' :: a :: b :: c :: d :: s, rfl, .cons (.unit hunit) hs⟩
  | case5 e tail _ c units' after hread hshort ih =>
      cases h
      obtain ⟨s, rfl, hs⟩ := ih hread
      exact ⟨'\\' :: e :: s, rfl, .cons (.short hshort) hs⟩
  | case8 c tail hquote _ hescape hcontrol units' after hread ih =>
      cases h
      have hback : c ≠ '\\' := by
        rintro rfl
        cases tail with
        | nil => cases hread
        | cons e tail => exact hescape e tail rfl rfl
      obtain ⟨s, rfl, hs⟩ := ih hread
      exact ⟨c :: s, rfl, .cons (.plain hcontrol hquote hback) hs⟩
  | case4 => cases h
  | case6 => cases h
  | case7 => cases h
  | case9 => cases h

theorem readUnits_append (h : Body units s) (rest : List Char) :
    readUnits (s ++ '"' :: rest) = some (units, rest) := by
  induction h with
  | nil => rw [List.nil_append, readUnits]
  | @cons u units piece s hpiece _ ih =>
      rw [List.append_assoc]
      cases hpiece with
      | plain hcontrol hquote hback => exact readUnits_plain hcontrol hquote hback ih
      | @short e c hc =>
          have hu : e ≠ 'u' := by
            rintro rfl
            cases hc
          exact readUnits_short hu hc ih
      | unit hn => exact readUnits_unit hn ih

end Literal

/-! ## Tokens -/

/-- **How a token is written.** `Token.Spelled t s` allows any `Body` between quotes for a text and any
    `Number`, and one spelling for each of the others. -/
inductive Token.Spelled : Token → List Char → Prop where
  | openArray : Spelled .openArray ['[']
  | closeArray : Spelled .closeArray [']']
  | openObject : Spelled .openObject ['\x7b']
  | closeObject : Spelled .closeObject ['\x7d']
  | comma : Spelled .comma [',']
  | colon : Spelled .colon [':']
  | null : Spelled .null ['n', 'u', 'l', 'l']
  | boolTrue : Spelled (.bool true) ['t', 'r', 'u', 'e']
  | boolFalse : Spelled (.bool false) ['f', 'a', 'l', 's', 'e']
  | string {units : List (Nat ⊕ Char)} {s : List Char} (h : Literal.Body units s) :
      Spelled (.string ((Literal.joinUnits units).map String.ofList)) ('"' :: (s ++ ['"']))
  | number {s : List Char} (h : Number s) : Spelled .number s

variable {t : Token} {ts : List Token}

theorem token?_sound (h : token? cs = some (t, rest)) : ∃ s, cs = s ++ rest ∧ t.Spelled s := by
  rw [token?.eq_def] at h
  split at h
  · cases h; exact ⟨_, rfl, .openArray⟩
  · cases h; exact ⟨_, rfl, .closeArray⟩
  · cases h; exact ⟨_, rfl, .openObject⟩
  · cases h; exact ⟨_, rfl, .closeObject⟩
  · cases h; exact ⟨_, rfl, .comma⟩
  · cases h; exact ⟨_, rfl, .colon⟩
  · cases h; exact ⟨_, rfl, .null⟩
  · cases h; exact ⟨_, rfl, .boolTrue⟩
  · cases h; exact ⟨_, rfl, .boolFalse⟩
  · obtain ⟨⟨units, after⟩, hread, heq⟩ := Option.map_eq_some_iff.mp h
    cases heq
    obtain ⟨s, rfl, hs⟩ := Literal.readUnits_sound hread
    exact ⟨'"' :: (s ++ ['"']), by simp, .string hs⟩
  · obtain ⟨after, hafter, heq⟩ := Option.map_eq_some_iff.mp h
    cases heq
    obtain ⟨s, rfl, hs⟩ := afterNumber?_sound hafter
    exact ⟨s, rfl, .number hs⟩

theorem Number.head (h : Number s) : ∃ c tail, s = c :: tail ∧ (c = '-' ∨ c.isDigit = true) := by
  cases h with
  | mk hsign hwhole _ _ =>
      rcases hsign with rfl | rfl
      · cases hwhole with
        | zero => exact ⟨_, _, rfl, .inr rfl⟩
        | digits _ h =>
            obtain ⟨hall⟩ := h
            exact ⟨_, _, rfl, .inr (hall _ List.mem_cons_self)⟩
      · exact ⟨_, _, rfl, .inl rfl⟩

theorem token?_of_number (h : Number s) (rest : List Char) :
    token? (s ++ rest) = (afterNumber? (s ++ rest)).map fun after => (.number, after) := by
  obtain ⟨c, tail, rfl, hc⟩ := h.head
  rw [List.cons_append, token?.eq_def]
  -- no other token starts with a minus or a digit
  split
  all_goals first | rfl | (rename_i heq; obtain ⟨rfl, -⟩ := List.cons.inj heq; simp at hc)

/-- **A token is cut off whole** by `token?`, a number if what follows `Avoids` all that it may go on with. -/
theorem token?_append (h : t.Spelled s) (hrest : t = .number → Avoids extendsNumber rest) :
    token? (s ++ rest) = some (t, rest) := by
  cases h with
  | string h =>
      have hread := Literal.readUnits_append h rest
      rw [List.cons_append, List.append_assoc, List.singleton_append, token?, hread]
      rfl
  | number h => rw [token?_of_number h, afterNumber?_append h (hrest rfl)]; rfl
  | _ => rfl

/-! ## Texts -/

/-- **`Gap`**: blanks, or nothing. -/
def Gap (cs : List Char) : Prop := ∀ c ∈ cs, isBlank c = true

theorem gap_nil : Gap [] := nofun

/-- **A text that lays out tokens**: in `Laid ts cs` each of `ts` is `Spelled`, with any `Gap` around it. -/
inductive Laid : List Token → List Char → Prop where
  | nil {gap : List Char} (hgap : Gap gap) : Laid [] gap
  | cons {t : Token} {ts : List Token} {gap s cs : List Char} (hgap : Gap gap) (hs : t.Spelled s) (h : Laid ts cs) :
      Laid (t :: ts) (gap ++ (s ++ cs))

/-- What may stand directly behind a number in a value: `.comma`, `.closeArray` or `.closeObject`. -/
def Token.IsStop (t : Token) : Prop := t = .comma ∨ t = .closeArray ∨ t = .closeObject

/-- `Token.Beside t u`: the two may come after each other without running into each other. -/
def Token.Beside (t u : Token) : Prop := t = .number → u.IsStop

/-- What `tokensWithin` comes to: the end of the text, or a token and what is cut behind it. -/
theorem tokensWithin_cases {fuel : Nat} (h : tokensWithin fuel cs = some ts) :
    (ts = [] ∧ cs.dropWhile isBlank = []) ∨
    ∃ n t us rest, fuel = n + 1 ∧ ts = t :: us ∧ token? (cs.dropWhile isBlank) = some (t, rest) ∧
      tokensWithin n rest = some us := by
  rw [tokensWithin.eq_def] at h
  dsimp only at h
  split at h
  · next hdrop => exact .inl ⟨(Option.some.inj h).symm, hdrop⟩
  · cases h
  · next n _ =>
      split at h
      · cases h
      · next t rest htoken =>
          obtain ⟨us, hus, rfl⟩ := Option.map_eq_some_iff.mp h
          exact .inr ⟨n, t, us, rest, rfl, rfl, htoken, hus⟩

theorem laid_of_tokensWithin {fuel : Nat} (h : tokensWithin fuel cs = some ts) : Laid ts cs := by
  induction fuel generalizing cs ts with
  | zero =>
      obtain ⟨rfl, hdrop⟩ | ⟨n, _, _, _, hn, _⟩ := tokensWithin_cases h
      · exact .nil (List.dropWhile_eq_nil_iff.mp hdrop)
      · cases hn
  | succ fuel ih =>
      obtain ⟨rfl, hdrop⟩ | ⟨_, t, us, rest, hn, rfl, htoken, hrest⟩ := tokensWithin_cases h
      · exact .nil (List.dropWhile_eq_nil_iff.mp hdrop)
      · obtain rfl := Nat.succ.inj hn
        obtain ⟨s, hs, hspelled⟩ := token?_sound htoken
        have hgap : Gap (cs.takeWhile isBlank) := List.all_eq_true.mp List.all_takeWhile
        have hcs : cs.takeWhile isBlank ++ (s ++ rest) = cs := by rw [← hs, List.takeWhile_append_dropWhile]
        exact hcs ▸ .cons hgap hspelled (ih hrest)

/-- The `tokens` of a text are tokens that the text lays out. -/
theorem laid_of_tokens (h : tokens cs = some ts) : Laid ts cs := laid_of_tokensWithin h

theorem isBlank_cases {c : Char} (h : isBlank c = true) : c = ' ' ∨ c = '\t' ∨ c = '\n' ∨ c = '\r' := by
  simpa only [isBlank, Bool.or_eq_true, decide_eq_true_eq, or_assoc] using h

theorem Token.Spelled.head (h : t.Spelled s) : ∃ c tail, s = c :: tail ∧ isBlank c = false := by
  cases h with
  | number h =>
      obtain ⟨c, tail, rfl, hc⟩ := h.head
      refine ⟨c, tail, rfl, Bool.eq_false_iff.mpr fun hblank => ?_⟩
      rcases isBlank_cases hblank with rfl | rfl | rfl | rfl <;> simp at hc
  | _ => exact ⟨_, _, rfl, rfl⟩

theorem tokensWithin_gap {gap : List Char} (h : Gap gap) (fuel : Nat) (cs : List Char) :
    tokensWithin fuel (gap ++ cs) = tokensWithin fuel cs := by
  rw [tokensWithin.eq_def, tokensWithin.eq_def fuel cs]
  simp only [List.dropWhile_append_of_pos h]

/-- Behind a number comes nothing that it may go on with, if an `IsStop` or a text that `Avoids` this is
    next. -/
theorem Laid.avoids (h : Laid ts cs) (hhead : ∀ u ∈ ts.head?, u.IsStop)
    (hend : ts = [] → Avoids extendsNumber rest) : Avoids extendsNumber (cs ++ rest) := by
  have hgap : ∀ {gap}, Gap gap → Avoids extendsNumber gap := by
    intro gap hgap c hc
    have hblank := hgap c (List.mem_of_mem_head? hc)
    rcases isBlank_cases hblank with rfl | rfl | rfl | rfl <;> rfl
  cases h with
  | nil h => exact avoids_append (hgap h) (hend rfl)
  | cons h hs _ =>
      rw [List.append_assoc]
      refine avoids_append (hgap h) ?_
      rcases hhead _ rfl with rfl | rfl | rfl <;> cases hs <;> exact avoids_cons rfl _

/-- **Tokens that are laid out are cut off one by one** by `tokensWithin`, whatever follows them. -/
theorem Laid.tokensWithin_append (h : Laid ts cs) (hbeside : ts.IsChain Token.Beside)
    (hlast : ts.getLast? = some .number → Avoids extendsNumber rest) (fuel : Nat) :
    tokensWithin (ts.length + fuel) (cs ++ rest) = (tokensWithin fuel rest).map (ts ++ ·) := by
  induction h with
  | nil hgap => simp [tokensWithin_gap hgap]
  | @cons t ts gap s cs hgap hs h ih =>
      obtain ⟨hnext, hbeside⟩ := List.isChain_cons.mp hbeside
      obtain ⟨c, tail, rfl, hblank⟩ := hs.head
      have hdrop : (c :: tail ++ (cs ++ rest)).dropWhile isBlank = c :: tail ++ (cs ++ rest) :=
        List.dropWhile_cons_of_neg (by simp [hblank])
      have htoken : token? (c :: tail ++ (cs ++ rest)) = some (t, cs ++ rest) :=
        token?_append hs fun ht => h.avoids (fun u hu => hnext u hu ht) fun hnil => hlast (by rw [hnil, ht]; rfl)
      -- only the last token meets what follows; the others meet one that they may stand beside
      have hrest : ts.getLast? = some .number → Avoids extendsNumber rest := by
        intro hlast'
        cases ts with
        | nil => cases hlast'
        | cons u ts => exact hlast (by rw [List.getLast?_cons_cons, hlast'])
      rw [List.append_assoc, List.append_assoc, tokensWithin_gap hgap, List.length_cons, Nat.add_right_comm,
        tokensWithin_succ _ (by rw [hdrop]; simp) (by rw [hdrop, htoken]), ih hbeside hrest, Option.map_map]
      rfl

theorem Laid.length_le (h : Laid ts cs) : ts.length ≤ cs.length := by
  induction h with
  | nil _ => exact Nat.zero_le _
  | cons _ hs _ ih =>
      obtain ⟨c, tail, rfl, -⟩ := hs.head
      simp only [List.length_append, List.length_cons]
      omega

/-- **Tokens that are laid out are cut off** by `tokens`, and what follows them is cut into its own. -/
theorem Laid.tokens_append (h : Laid ts cs) (hbeside : ts.IsChain Token.Beside)
    (hlast : ts.getLast? = some .number → Avoids extendsNumber rest) :
    ∃ fuel, tokens (cs ++ rest) = (tokensWithin fuel rest).map (ts ++ ·) := by
  have hlength := h.length_le
  refine ⟨cs.length + rest.length - ts.length, ?_⟩
  rw [← h.tokensWithin_append hbeside hlast, tokens, List.length_append]
  congr 1
  omega

/-- **A text is cut into the tokens that it lays out**, if any two neighbours may stand `Beside` each
    other. -/
theorem tokens_of_laid (h : Laid ts cs) (hbeside : ts.IsChain Token.Beside) : tokens cs = some ts := by
  have hlast : ts.getLast? = some .number → Avoids extendsNumber [] := fun _ => nofun
  obtain ⟨fuel, htokens⟩ := h.tokens_append hbeside hlast
  rw [List.append_nil] at htokens
  rw [htokens, tokensWithin.eq_def]
  simp

/-! ## Spelling tokens -/

/-- A literal that was written, `Literal.encode`, is a spelling of its text. -/
theorem spelled_encode (text : String) : Token.Spelled (.string (some text)) (Literal.encode text.toList) := by
  have htoken := token?_encode text.toList []
  rw [String.ofList_toList, List.append_nil] at htoken
  obtain ⟨s, hs, hspelled⟩ := token?_sound htoken
  rw [hs, List.append_nil]
  exact hspelled

theorem exists_spelled (t : Token) : ∃ s, t.Spelled s := by
  cases t with
  | openArray => exact ⟨_, .openArray⟩
  | closeArray => exact ⟨_, .closeArray⟩
  | openObject => exact ⟨_, .openObject⟩
  | closeObject => exact ⟨_, .closeObject⟩
  | comma => exact ⟨_, .comma⟩
  | colon => exact ⟨_, .colon⟩
  | null => exact ⟨_, .null⟩
  | bool b =>
      cases b with
      | true => exact ⟨_, .boolTrue⟩
      | false => exact ⟨_, .boolFalse⟩
  | number => exact ⟨_, .number (.mk (.inl rfl) .zero .absent .absent)⟩
  | string text =>
      cases text with
      | some text => exact ⟨_, spelled_encode text⟩
      | none =>
          -- a surrogate that stands alone is no text
          have hunit : Literal.unit? 'd' '8' '0' '0' = some 0xD800 := by decide
          exact ⟨_, .string (.cons (.unit hunit) .nil)⟩

/-- A token without a `Gap` in front of it. -/
theorem Laid.token (hs : t.Spelled s) (h : Laid ts cs) : Laid (t :: ts) (s ++ cs) := .cons gap_nil hs h

theorem exists_laid (ts : List Token) : ∃ cs, Laid ts cs := by
  induction ts with
  | nil => exact ⟨[], .nil gap_nil⟩
  | cons t ts ih =>
      obtain ⟨cs, h⟩ := ih
      obtain ⟨s, hs⟩ := exists_spelled t
      exact ⟨s ++ cs, h.token hs⟩

end

end TestHarness.Json
