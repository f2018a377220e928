import Mathlib.Data.List.Infix
import TestHarness.Text.Scrub

/-!
# Scrubbing, piece by piece

`Scrub.apply` repairs a text in two passes, first the characters U+0000 and then the escapes `\x00`.
This file shows that nothing is lost by thinking of it as the one pass `Scrub.scrub`, and that the one
pass may be run on the pieces of a text instead of the whole: an escape is four characters long, so it
could lie across the border of two pieces, but not when the second piece starts with neither of the
characters that an escape goes on with (`scrub_append`), nor when the first one ends a line
(`scrub_append_endsLine`).
-/

namespace TestHarness.Scrub

/-- The characters that some programs print for a NUL, `\x00`. -/
def escape : List Char := ['\\', 'x', '0', '0']

/-- **`HasNul`** — a NUL in either form: the character itself, or the `escape` somewhere in the text. -/
def HasNul (text : String) : Prop := '\x00' ∈ text.toList ∨ escape <:+: text.toList

/-! ## One pass for two -/

theorem replaceNul_cons (c : Char) (cs : List Char) :
    replaceNul (c :: cs) = (if c = '\x00' then mark else [c]) ++ replaceNul cs := rfl

/-- The first pass, `replaceNul`, writes no character of an escape, so what it leaves as the rest of one was
    there. -/
theorem replaceNul_eq_cons {c : Char} (hc : c ≠ 'N') {cs ds : List Char}
    (h : replaceNul cs = c :: ds) : ∃ cs', cs = c :: cs' ∧ replaceNul cs' = ds := by
  cases cs with
  | nil => exact absurd h (by simp [replaceNul])
  | cons d cs' =>
      rw [replaceNul_cons] at h
      by_cases hd : d = '\x00'
      · rw [if_pos hd] at h
        injection h with hN _
        exact absurd hN.symm hc
      · rw [if_neg hd] at h
        injection h with hdc hds
        exact ⟨cs', by rw [hdc], hds⟩

/-- A character that starts no escape stays in front of what the second pass, `replaceEscapedNul`, makes of
    the rest. -/
theorem replaceEscapedNul_cons {c : Char} {cs : List Char}
    (h : ∀ rest, c = '\\' → cs ≠ 'x' :: '0' :: '0' :: rest) :
    replaceEscapedNul (c :: cs) = c :: replaceEscapedNul cs := by
  rw [replaceEscapedNul]
  rintro rest rfl rfl
  exact h rest rfl rfl

theorem replaceEscapedNul_mark (cs : List Char) :
    replaceEscapedNul (mark ++ cs) = mark ++ replaceEscapedNul cs := by
  simp [mark, replaceEscapedNul]

/-- **The two passes are one**, `scrubChars`. -/
theorem replaceEscapedNul_replaceNul (cs : List Char) :
    replaceEscapedNul (replaceNul cs) = scrubChars cs := by
  fun_induction scrubChars cs with
  | case1 rest ih =>
      have hkeep : replaceNul ('\\' :: 'x' :: '0' :: '0' :: rest)
          = '\\' :: 'x' :: '0' :: '0' :: replaceNul rest := rfl
      rw [hkeep, replaceEscapedNul, ih]
  | case2 c rest hne ih =>
      rw [replaceNul_cons]
      by_cases hc : c = '\x00'
      · rw [if_pos hc, replaceEscapedNul_mark, ih]
      · rw [if_neg hc]
        show replaceEscapedNul (c :: replaceNul rest) = c :: scrubChars rest
        rw [replaceEscapedNul_cons, ih]
        -- an escape after the first pass would have been one before it
        intro ds hback hds
        obtain ⟨r1, rfl, h1⟩ := replaceNul_eq_cons (by decide) hds
        obtain ⟨r2, rfl, h2⟩ := replaceNul_eq_cons (by decide) h1
        obtain ⟨r3, rfl, _⟩ := replaceNul_eq_cons (by decide) h2
        exact hne r3 hback rfl
  | case3 => rfl

theorem apply_eq_scrub (text : String) : apply text = scrub text := by
  unfold apply scrub
  rw [replaceEscapedNul_replaceNul]

/-! ## Borders -/

/-- A text that cannot continue an escape: it starts with neither `x` nor `0`. -/
def StartsFresh (cs : List Char) : Prop := ∀ c ∈ cs.head?, c ≠ 'x' ∧ c ≠ '0'

theorem startsFresh_nil : StartsFresh [] := by intro c hc; simp at hc

theorem startsFresh_cons {c : Char} (hx : c ≠ 'x') (h0 : c ≠ '0') (cs : List Char) :
    StartsFresh (c :: cs) := by
  intro d hd
  simp only [List.head?_cons, Option.mem_def, Option.some.injEq] at hd
  exact hd ▸ ⟨hx, h0⟩

/-- `scrubChars` goes one character at a time, unless an escape starts here. -/
theorem scrubChars_cons {c : Char} {cs : List Char}
    (h : ∀ rest, c = '\\' → cs ≠ 'x' :: '0' :: '0' :: rest) :
    scrubChars (c :: cs) = (if c = '\x00' then mark else [c]) ++ scrubChars cs := by
  rw [scrubChars]
  rintro rest rfl rfl
  exact h rest rfl rfl

theorem StartsFresh.ne_x {cs : List Char} (hf : StartsFresh cs) (rest : List Char) : cs ≠ 'x' :: rest := by
  rintro rfl
  exact (hf 'x' rfl).1 rfl

theorem StartsFresh.ne_0 {cs : List Char} (hf : StartsFresh cs) (rest : List Char) : cs ≠ '0' :: rest := by
  rintro rfl
  exact (hf '0' rfl).2 rfl

/-- An escape that starts in front of a fresh border (`StartsFresh`) ends in front of it. -/
theorem escape_tail_of_append {as bs : List Char} (hb : StartsFresh bs) {rest : List Char}
    (h : as ++ bs = 'x' :: '0' :: '0' :: rest) : ∃ rest', as = 'x' :: '0' :: '0' :: rest' := by
  match as, h with
  | [], h => exact absurd h (hb.ne_x _)
  | [a], h =>
      injection h with _ h
      exact absurd h (hb.ne_0 _)
  | [a, b], h =>
      injection h with _ h
      injection h with _ h
      exact absurd h (hb.ne_0 _)
  | a :: b :: c :: rest', h =>
      injection h with ha h
      injection h with hb' h
      injection h with hc _
      exact ⟨rest', by rw [ha, hb', hc]⟩

/-- **Scrubbing distributes over a fresh border**:
    `scrubChars (as ++ bs) = scrubChars as ++ scrubChars bs`. -/
theorem scrubChars_append {bs : List Char} (hb : StartsFresh bs) (as : List Char) :
    scrubChars (as ++ bs) = scrubChars as ++ scrubChars bs := by
  fun_induction scrubChars as with
  | case1 rest ih =>
      show scrubChars ('\\' :: 'x' :: '0' :: '0' :: (rest ++ bs)) = _
      rw [scrubChars, ih, List.append_assoc]
  | case2 c rest hne ih =>
      rw [List.cons_append, scrubChars_cons, ih, List.append_assoc]
      intro ds hback hds
      obtain ⟨rest', rfl⟩ := escape_tail_of_append hb hds
      exact hne rest' hback rfl
  | case3 => rfl

theorem toList_scrub (text : String) : (scrub text).toList = scrubChars text.toList := by
  unfold scrub
  rw [String.toList_ofList]

theorem scrub_append {t : String} (ht : StartsFresh t.toList) (s : String) :
    scrub (s ++ t) = scrub s ++ scrub t := by
  apply String.toList_inj.mp
  rw [String.toList_append, toList_scrub, toList_scrub, toList_scrub, String.toList_append,
    scrubChars_append ht]

/-- A newline belongs to no `escape`, so a text that ends a line is scrubbed on its own. -/
theorem scrub_append_endsLine (s t : String) :
    scrub (s ++ "\n" ++ t) = scrub (s ++ "\n") ++ scrub t := by
  have hfresh : ∀ cs, StartsFresh ('\n' :: cs) := startsFresh_cons (by decide) (by decide)
  have hline : ∀ cs, scrubChars ('\n' :: cs) = '\n' :: scrubChars cs := fun cs => by
    rw [scrubChars_cons (fun _ h => absurd h (by decide))]; rfl
  apply String.toList_inj.mp
  simp only [toList_scrub, String.toList_append]
  show scrubChars (s.toList ++ ['\n'] ++ t.toList) = scrubChars (s.toList ++ ['\n']) ++ _
  rw [List.append_assoc, List.singleton_append, scrubChars_append (hfresh _),
    scrubChars_append (hfresh _), hline, hline, List.append_assoc]
  rfl

/-! ## When there is something to scrub -/

theorem hasEscapedNul_iff (cs : List Char) : hasEscapedNul cs = true ↔ escape <:+: cs := by
  induction cs with
  | nil => simp [hasEscapedNul, escape]
  | cons c rest ih =>
      rw [hasEscapedNul, Bool.or_eq_true, ih, List.isPrefixOf_iff_prefix, List.infix_cons_iff]
      rfl

theorem needed_iff (text : String) : needed text = true ↔ HasNul text := by
  rw [needed, Bool.or_eq_true, hasEscapedNul_iff, List.contains_iff_mem]
  rfl

instance (text : String) : Decidable (HasNul text) := decidable_of_iff _ (needed_iff text)

/-- A text without NULs is left as it is by `scrubChars`. -/
theorem scrubChars_eq_self {cs : List Char} (hc : '\x00' ∉ cs) (he : ¬ escape <:+: cs) :
    scrubChars cs = cs := by
  fun_induction scrubChars cs with
  | case1 rest _ => exact absurd ⟨[], rest, rfl⟩ he
  | case2 c rest _ ih =>
      rw [List.mem_cons, not_or] at hc
      rw [if_neg (Ne.symm hc.1), ih hc.2 (fun h => he (List.infix_cons h))]
      rfl
  | case3 => rfl

theorem scrub_eq_self {text : String} (h : ¬ HasNul text) : scrub text = text := by
  rw [HasNul, not_or] at h
  unfold scrub
  rw [scrubChars_eq_self h.1 h.2, String.ofList_toList]

/-! ## After scrubbing -/

theorem nul_notMem_scrubChars (cs : List Char) : '\x00' ∉ scrubChars cs := by
  fun_induction scrubChars cs with
  | case1 rest ih => simp [mark, ih]
  | case2 c rest _ ih =>
      by_cases hc : c = '\x00'
      · simp [hc, mark, ih]
      · simp [hc, ih, Ne.symm hc]
  | case3 => exact List.not_mem_nil

/-- What is written for a NUL starts with `N`, so any other first character was the first before. -/
theorem scrubChars_eq_cons {c : Char} (hc : c ≠ 'N') {cs ds : List Char}
    (h : scrubChars cs = c :: ds) : ∃ cs', cs = c :: cs' ∧ scrubChars cs' = ds := by
  revert h
  fun_cases scrubChars cs with
  | case1 rest =>
      intro h
      exact absurd (List.cons.inj h).1.symm hc
  | case2 d rest _ =>
      intro h
      by_cases hd : d = '\x00'
      · rw [if_pos hd] at h
        exact absurd (List.cons.inj h).1.symm hc
      · rw [if_neg hd] at h
        obtain ⟨rfl, hds⟩ := List.cons.inj h
        exact ⟨rest, rfl, hds⟩
  | case3 => exact nofun

/-- The `mark` has no character of an escape. -/
theorem escape_infix_of_mark_append {cs : List Char} (h : escape <:+: mark ++ cs) : escape <:+: cs := by
  simpa [mark, escape, List.infix_cons_iff] using h

/-- **No `escape` is left**: one in the result would start where the text has one, and that one has become a
    mark. -/
theorem escape_not_infix_scrubChars (cs : List Char) : ¬ escape <:+: scrubChars cs := by
  fun_induction scrubChars cs with
  | case1 rest ih =>
      intro hinfix
      exact ih (escape_infix_of_mark_append hinfix)
  | case2 c rest hne ih =>
      intro hinfix
      by_cases hc : c = '\x00'
      · rw [if_pos hc] at hinfix
        exact ih (escape_infix_of_mark_append hinfix)
      · rw [if_neg hc] at hinfix
        rcases List.infix_cons_iff.mp hinfix with ⟨ds, hds⟩ | htail
        · -- the escape starts at this character, so the text goes on with the rest of it
          obtain ⟨hback, hds⟩ := List.cons.inj hds
          obtain ⟨r1, rfl, h1⟩ := scrubChars_eq_cons (by decide) hds.symm
          obtain ⟨r2, rfl, h2⟩ := scrubChars_eq_cons (by decide) h1
          obtain ⟨r3, rfl, _⟩ := scrubChars_eq_cons (by decide) h2
          exact hne r3 hback.symm rfl
        · exact ih htail
  | case3 => simp [escape]

/-- **No NUL is left** by `scrub`, in either form. -/
theorem not_hasNul_scrub (text : String) : ¬ HasNul (scrub text) := by
  rw [HasNul, toList_scrub, not_or]
  exact ⟨nul_notMem_scrubChars _, escape_not_infix_scrubChars _⟩

end TestHarness.Scrub
