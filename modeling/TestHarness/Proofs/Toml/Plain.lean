import TestHarness.Proofs.Toml.Quoted
import TestHarness.Proofs.Toml.Scalar
import TestHarness.Toml.Document

/-!
# Plain documents

A plain document has its assignments on lines of their own, first those of the document and then, under a
header each, those of its tables. Its keys and the names of its tables are bare, and its values are
integers in plain decimal, booleans and basic strings. Blanks and empty lines stand freely. Such a document
reads as its entries in their order (`ofText?_plain`), as long as no key and no name is given twice.

The proof follows the reader: a value, and so a statement, is read up to the end of its line
(`Written.value?`, `WrittenStatement.statement?`), the statements of a text are those it lays out
(`Laid.statements?`), and a key or a name that is new takes its place at the end (`assignAll?_fresh`,
`addGroups?_fresh`).
-/

namespace TestHarness.Toml

/-! ## The form -/

/-- **`IsBare`**: a key that can be written without quotes, made of `isBareKeyChar`s and not empty. -/
structure IsBare (key : String) : Prop where
  ne_empty : key.toList ≠ []
  chars : key.toList.all isBareKeyChar = true

/-- **`Blank`**: blanks within a line, or nothing. -/
def Blank (cs : List Char) : Prop := ∀ c ∈ cs, isSpace c = true

/-- **`Gap`**: blanks and empty lines. -/
inductive Gap : List Char → Prop where
  | nil : Gap []
  | space {c : Char} {cs : List Char} : isSpace c = true → Gap cs → Gap (c :: cs)
  | lineFeed {cs : List Char} : Gap cs → Gap ('\n' :: cs)
  | carriageReturn {cs : List Char} : Gap cs → Gap ('\r' :: '\n' :: cs)

/-- `EndsLine cs rest`: blanks and a line end, and behind them `rest`. The end of the text ends its last
line. -/
inductive EndsLine : List Char → List Char → Prop where
  | text : EndsLine [] []
  | lineFeed (rest : List Char) : EndsLine ('\n' :: rest) rest
  | carriageReturn (rest : List Char) : EndsLine ('\r' :: '\n' :: rest) rest
  | space {c : Char} {cs rest : List Char} : isSpace c = true → EndsLine cs rest → EndsLine (c :: cs) rest

/-- **Writings of a value** on one line: `true` or `false`, a decimal, or a text `Spelled` between quotes. -/
inductive Written : Value → List Char → Prop where
  | integer (n : Nat) : Written (.integer n) (Nat.toDigits 10 n)
  | boolean (b : Bool) : Written (.boolean b) (toString b).toList
  | string {text : String} {spelled : List Char} : Quoted.SpelledText text.toList spelled →
      Written (.string text) ('"' :: (spelled ++ ['"']))

/-- **Writings of a statement** on one line: a bare key, `=` and a value, or a bare name in brackets, with any
    `Blank` between them. -/
inductive WrittenStatement : Statement → List Char → Prop where
  | assign {key : String} {v : Value} {before after cs : List Char} :
      IsBare key → Blank before → Blank after → Written v cs →
      WrittenStatement (.assign [key] v) (key.toList ++ (before ++ '=' :: (after ++ cs)))
  | header {name : String} {before after : List Char} : IsBare name → Blank before → Blank after →
      WrittenStatement (.header [name]) ('[' :: (before ++ (name.toList ++ (after ++ [']']))))

/-- **Layouts of statements**: in `Laid` each stands on a line of its own, with any `Gap` around it. -/
inductive Laid : List Statement → List Char → Prop where
  | nil {gap : List Char} : Gap gap → Laid [] gap
  | cons {s : Statement} {statements : List Statement} {gap cs tail rest : List Char} :
      Gap gap → WrittenStatement s cs → EndsLine tail rest → Laid statements rest →
      Laid (s :: statements) (gap ++ (cs ++ tail))

/-! ## Blanks -/

/-- **`IsSolid`**: a character that neither is a blank nor opens a comment. -/
structure IsSolid (c : Char) : Prop where
  not_lineFeed : c ≠ '\n'
  not_return : c ≠ '\r'
  not_space : isSpace c = false
  not_comment : c ≠ '#'

theorem IsSolid.skipBlank {c : Char} (h : IsSolid c) (rest : List Char) :
    skipBlank (c :: rest) = some (c :: rest) := by
  rw [Toml.skipBlank, skipLines]
  · simp only [h.not_space, h.not_comment, Bool.false_eq_true, if_false]
  · exact h.not_lineFeed
  · intro _ hreturn _
    exact h.not_return hreturn

theorem isSpace_cases {c : Char} (h : isSpace c = true) : c = ' ' ∨ c = '\t' := by
  simpa [isSpace] using h

theorem skipSpaces_cons {c : Char} (h : isSpace c = false) (rest : List Char) :
    skipSpaces (c :: rest) = c :: rest :=
  List.dropWhile_cons_of_neg (by rw [h]; decide)

theorem Blank.nil : Blank [] := fun _ h => absurd h List.not_mem_nil

theorem Blank.skipSpaces {blank : List Char} (h : Blank blank) (cs : List Char) :
    skipSpaces (blank ++ cs) = skipSpaces cs :=
  List.dropWhile_append_of_pos h

theorem Gap.skipBlank {gap : List Char} (h : Gap gap) (cs : List Char) :
    skipBlank (gap ++ cs) = skipBlank cs := by
  induction h with
  | nil => rfl
  | space hc _ ih =>
      rcases isSpace_cases hc with rfl | rfl
      · exact ih
      · exact ih
  | lineFeed _ ih => exact ih
  | carriageReturn _ ih => exact ih

theorem EndsLine.endLine? {tail rest : List Char} (h : EndsLine tail rest) : endLine? tail = some rest := by
  induction h with
  | text => rfl
  | lineFeed rest => rfl
  | carriageReturn rest => rfl
  | space hc _ ih =>
      rcases isSpace_cases hc with rfl | rfl
      · exact ih
      · exact ih

theorem EndsLine.length_le {tail rest : List Char} (h : EndsLine tail rest) : rest.length ≤ tail.length := by
  induction h with
  | text => exact Nat.le_refl 0
  | lineFeed rest => exact Nat.le_succ _
  | carriageReturn rest => exact Nat.le_add_right _ 2
  | space _ _ ih => exact Nat.le_succ_of_le ih

/-- What `EndsLine` goes on with no value. -/
theorem EndsLine.head {tail rest : List Char} (h : EndsLine tail rest) :
    ∀ c, tail.head? = some c → Scalar.isScalarChar c = false ∧ c ≠ '"' := by
  rintro c hc
  cases h with
  | text => cases hc
  | lineFeed _ => cases hc; exact ⟨by decide, by decide⟩
  | carriageReturn _ => cases hc; exact ⟨by decide, by decide⟩
  | space hspace _ =>
      cases hc
      rcases isSpace_cases hspace with rfl | rfl
      · exact ⟨by decide, by decide⟩
      · exact ⟨by decide, by decide⟩

/-- No blank and digit stand where `EndsLine` begins. -/
theorem EndsLine.not_digit {tail rest : List Char} (h : EndsLine tail rest) :
    ∀ c after, tail = ' ' :: c :: after → c.isDigit = false := by
  rintro c after rfl
  cases h with
  | space _ h =>
      have hc := (h.head c rfl).1
      simp only [Scalar.isScalarChar, Char.isAlphanum, Bool.or_eq_false_iff] at hc
      exact hc.1.1.1.1.1.2

/-! ## Keys -/

theorem isSolid_of_bare {c : Char} (h : isBareKeyChar c = true) :
    IsSolid c ∧ c ≠ '"' ∧ c ≠ '\'' ∧ c ≠ '[' ∧ c ≠ '\uFEFF' := by
  have hne : ∀ d, isBareKeyChar d = false → c ≠ d := by
    rintro d hd rfl
    rw [h] at hd
    cases hd
  have hspace : isSpace c = false := by
    rw [isSpace, decide_eq_false (hne ' ' rfl), decide_eq_false (hne '\t' rfl)]
    rfl
  exact ⟨⟨hne _ rfl, hne _ rfl, hspace, hne _ rfl⟩, hne _ rfl, hne _ rfl, hne _ rfl, hne _ rfl⟩

/-- A bare key starts with an `isBareKeyChar`. -/
theorem IsBare.cons {key : String} (h : IsBare key) :
    ∃ c cs, key.toList = c :: cs ∧ isBareKeyChar c = true := by
  obtain ⟨c, cs, hkey⟩ := List.exists_cons_of_ne_nil h.ne_empty
  exact ⟨c, cs, hkey, List.all_eq_true.mp h.chars c (by rw [hkey]; exact List.mem_cons_self)⟩

/-- A bare key is read by `simpleKey?` up to the first character that may not stand in it. -/
theorem IsBare.simpleKey? {key : String} (h : IsBare key) {d : Char} (hd : isBareKeyChar d = false)
    (rest : List Char) : simpleKey? (key.toList ++ d :: rest) = some (key, d :: rest) := by
  have hchars := List.all_eq_true.mp h.chars
  have hd' : ¬ isBareKeyChar d = true := by rw [hd]; decide
  have htake : (key.toList ++ d :: rest).takeWhile isBareKeyChar = key.toList := by
    rw [List.takeWhile_append_of_pos hchars, List.takeWhile_cons_of_neg hd', List.append_nil]
  have hdrop : (key.toList ++ d :: rest).dropWhile isBareKeyChar = d :: rest := by
    rw [List.dropWhile_append_of_pos hchars, List.dropWhile_cons_of_neg hd']
  obtain ⟨c, cs, hkey, hc⟩ := h.cons
  obtain ⟨_, hquotes, hquote, _⟩ := isSolid_of_bare hc
  unfold Toml.simpleKey?
  split
  · next heq =>
      rw [hkey] at heq
      exact absurd (List.cons.inj heq).1 hquotes
  · next heq =>
      rw [hkey] at heq
      exact absurd (List.cons.inj heq).1 hquote
  · rw [htake, hdrop, hkey]
    show some (String.ofList (c :: cs), d :: rest) = _
    rw [← hkey, String.ofList_toList]

/-- A bare key between blanks is read by `dottedKey?`, before a character that neither goes on with it nor
    adds another key. -/
theorem IsBare.dottedKey? {key : String} (h : IsBare key) {before after : List Char} (hbefore : Blank before)
    (hafter : Blank after) {d : Char} (hd : isBareKeyChar d = false) (hspace : isSpace d = false)
    (hdot : d ≠ '.') (rest : List Char) :
    dottedKey? (before ++ (key.toList ++ (after ++ d :: rest))) = some ([key], d :: rest) := by
  obtain ⟨c, cs, hkey, hc⟩ := h.cons
  have hsolid := (isSolid_of_bare hc).1
  have hskip : skipSpaces (before ++ (key.toList ++ (after ++ d :: rest)))
      = key.toList ++ (after ++ d :: rest) := by
    rw [hbefore.skipSpaces, hkey, List.cons_append]
    exact skipSpaces_cons hsolid.not_space _
  have hrest : skipSpaces (after ++ d :: rest) = d :: rest := by
    rw [hafter.skipSpaces, skipSpaces_cons hspace]
  have hread : Toml.simpleKey? (key.toList ++ (after ++ d :: rest)) = some (key, after ++ d :: rest) := by
    -- the key ends at a blank or, without one, at what comes next
    cases after with
    | nil => exact h.simpleKey? hd rest
    | cons e after =>
        rcases isSpace_cases (hafter e List.mem_cons_self) with rfl | rfl
        · exact h.simpleKey? rfl _
        · exact h.simpleKey? rfl _
  rw [Toml.dottedKey?, dottedKeyWithin?, hskip, hread]
  simp only [Option.bind_eq_bind, Option.bind_some, hrest]
  split
  · next heq => exact absurd (List.cons.inj heq).1 hdot
  · rfl

/-! ## Values -/

/-- What starts like no string, no array and no inline table is read by `value?` as a scalar, over its
    `Scalar.run`. -/
theorem value?_scalar {c : Char} (hquotes : c ≠ '"') (hquote : c ≠ '\'') (harray : c ≠ '[')
    (htable : c ≠ '\x7b') (cs : List Char) :
    value? (c :: cs)
      = (Scalar.scalar? (Scalar.run (c :: cs)).1).map fun v => (v, (Scalar.run (c :: cs)).2) := by
  unfold value? maxDepth valueWithin?
  split
  · next heq => exact absurd (List.cons.inj heq).1 hquotes
  · next heq => exact absurd (List.cons.inj heq).1 hquote
  · next heq => exact absurd (List.cons.inj heq).1 harray
  · next heq => exact absurd (List.cons.inj heq).1 htable
  · next heq => exact absurd (List.cons.inj heq).1 harray
  · next heq => exact absurd (List.cons.inj heq).1 htable
  · rfl

theorem value?_string {cs : List Char} {text : List Char} {rest : List Char}
    (h : Quoted.quoted? ('"' :: cs) = some (text, rest)) :
    value? ('"' :: cs) = some (.string (String.ofList text), rest) := by
  unfold value? maxDepth valueWithin?
  rw [h]
  rfl

/-- A scalar is read by `value?` up to the end of its line. -/
theorem value?_line {cs : List Char} {v : Value} (hne : cs ≠ [])
    (hcs : ∀ c ∈ cs, Scalar.isScalarChar c = true) (hv : Scalar.scalar? cs = some v) {tail rest : List Char}
    (htail : EndsLine tail rest) : value? (cs ++ tail) = some (v, tail) := by
  have hrun := Scalar.run_append hcs (fun c hc => (htail.head c hc).1) htail.not_digit
  obtain ⟨c, cs', rfl⟩ := List.exists_cons_of_ne_nil hne
  have hother : ∀ d, Scalar.isScalarChar d = false → c ≠ d := by
    rintro d hd rfl
    rw [hcs c List.mem_cons_self] at hd
    cases hd
  rw [List.cons_append] at hrun ⊢
  rw [value?_scalar (hother _ rfl) (hother _ rfl) (hother _ rfl) (hother _ rfl), hrun, hv]
  rfl

theorem isScalarChar_of_digit {n : Nat} : ∀ c ∈ Nat.toDigits 10 n, Scalar.isScalarChar c = true := by
  intro c hc
  have hdigit := Scalar.isDigit_of_mem n c hc
  simp [Scalar.isScalarChar, Char.isAlphanum, hdigit]

/-- **A written value is read back** by `value?` at the end of its line. -/
theorem Written.value? {v : Value} {cs : List Char} (h : Written v cs) {tail rest : List Char}
    (htail : EndsLine tail rest) : value? (cs ++ tail) = some (v, tail) := by
  cases h with
  | integer n => exact value?_line Nat.toDigits_ne_nil isScalarChar_of_digit (Scalar.scalar?_toDigits n) htail
  | boolean b =>
      cases b with
      | false => exact value?_line (by decide) (List.all_eq_true.mp (by decide)) rfl htail
      | true => exact value?_line (by decide) (List.all_eq_true.mp (by decide)) rfl htail
  | @string text spelled htext =>
      have hquotes : tail.head? ≠ some '"' := fun hhead => (htail.head _ hhead).2 rfl
      rw [List.cons_append, List.append_assoc, List.singleton_append,
        value?_string (Quoted.quoted?_spelled htext hquotes), String.ofList_toList]

/-- A written value starts with nothing that `skipSpaces` would skip. -/
theorem Written.skipSpaces {v : Value} {cs : List Char} (h : Written v cs) (rest : List Char) :
    skipSpaces (cs ++ rest) = cs ++ rest := by
  cases h with
  | integer n =>
      obtain ⟨c, tail, hcs⟩ := List.exists_cons_of_ne_nil (@Nat.toDigits_ne_nil n 10)
      have hc := Scalar.isDigit_of_mem n c (by rw [hcs]; exact List.mem_cons_self)
      have hspace : isSpace c = false := by
        rw [isSpace, Bool.or_eq_false_iff, decide_eq_false_iff_not, decide_eq_false_iff_not]
        constructor <;> rintro rfl <;> cases hc
      rw [hcs]
      exact skipSpaces_cons hspace _
  | boolean b => cases b <;> exact skipSpaces_cons rfl _
  | string _ => exact skipSpaces_cons rfl _

/-! ## Statements -/

/-- No statement starts like a blank, a comment or a byte order mark: its first character is `IsSolid`. -/
theorem WrittenStatement.cons {s : Statement} {cs : List Char} (h : WrittenStatement s cs) :
    ∃ c tail, cs = c :: tail ∧ IsSolid c ∧ c ≠ '\uFEFF' := by
  cases h with
  | assign hkey _ _ _ =>
      obtain ⟨c, tail, hcs, hc⟩ := hkey.cons
      obtain ⟨hsolid, _, _, _, hmark⟩ := isSolid_of_bare hc
      exact ⟨c, _, by rw [hcs]; rfl, hsolid, hmark⟩
  | header _ _ _ => exact ⟨'[', _, rfl, ⟨by decide, by decide, rfl, by decide⟩, by decide⟩

/-- **A written statement is read back** by `statement?` at the end of its line. -/
theorem WrittenStatement.statement? {s : Statement} {cs : List Char} (h : WrittenStatement s cs)
    {tail rest : List Char} (htail : EndsLine tail rest) : statement? (cs ++ tail) = some (s, tail) := by
  cases h with
  | @assign key v before after cs hkey hbefore hafter hv =>
      have htext : key.toList ++ (before ++ '=' :: (after ++ cs)) ++ tail
          = [] ++ (key.toList ++ (before ++ '=' :: (after ++ (cs ++ tail)))) := by simp
      have hassign : assignment? Toml.value? ([] ++ (key.toList ++ (before ++ '=' :: (after ++ (cs ++ tail)))))
          = some (([key], v), tail) := by
        rw [assignment?, hkey.dottedKey? Blank.nil hbefore rfl rfl (by decide)]
        simp only [Option.bind_eq_bind, Option.bind_some, hafter.skipSpaces, hv.skipSpaces, hv.value? htail]
        rfl
      obtain ⟨c, more, hcs, hc⟩ := hkey.cons
      obtain ⟨_, _, _, harray, _⟩ := isSolid_of_bare hc
      rw [htext]
      rw [hcs, List.nil_append, List.cons_append] at hassign ⊢
      unfold Toml.statement?
      split
      · next heq => exact absurd (List.cons.inj heq).1 harray
      · next heq => exact absurd (List.cons.inj heq).1 harray
      · rw [hassign]; rfl
  | @header name before after hname hbefore hafter =>
      have htext : '[' :: (before ++ (name.toList ++ (after ++ [']']))) ++ tail
          = '[' :: (before ++ (name.toList ++ (after ++ ']' :: tail))) := by simp
      have hkey : dottedKey? (before ++ (name.toList ++ (after ++ ']' :: tail))) = some ([name], ']' :: tail) :=
        hname.dottedKey? hbefore hafter rfl rfl (by decide) tail
      rw [htext]
      unfold Toml.statement?
      split
      · next heq =>
          -- neither a blank nor a bare key opens the header of an array
          obtain ⟨_, heq⟩ := List.cons.inj heq
          obtain ⟨c, more, hcs, hc⟩ := hname.cons
          obtain ⟨_, _, _, harray, _⟩ := isSolid_of_bare hc
          cases before with
          | nil =>
              rw [hcs] at heq
              exact absurd (List.cons.inj heq).1 harray
          | cons b before =>
              obtain ⟨rfl, _⟩ := List.cons.inj heq
              cases hbefore '[' List.mem_cons_self
      · next heq =>
          obtain ⟨_, rfl⟩ := List.cons.inj heq
          rw [hkey]
          rfl
      · next hno => exact absurd rfl (hno _)

/-! ## Layouts -/

/-- **Laid statements are read back** by `statementsWithin?`, in their order. -/
theorem Laid.statementsWithin? {statements : List Statement} {cs : List Char} (h : Laid statements cs)
    (fuel : Nat) : statementsWithin? (fuel + 1 + statements.length) cs = some statements := by
  induction h with
  | @nil gap hgap =>
      have hskip : skipBlank gap = some [] := by
        have h := hgap.skipBlank []
        rwa [List.append_nil] at h
      show Toml.statementsWithin? (fuel + 1) gap = _
      rw [Toml.statementsWithin?, hskip]
      rfl
  | @cons s statements gap cs tail rest hgap hs htail _ ih =>
      -- a statement starts with no blank, so the gap is skipped up to it
      obtain ⟨c, more, hcs, hsolid, _⟩ := hs.cons
      have hskip : skipBlank (gap ++ (cs ++ tail)) = some (c :: (more ++ tail)) := by
        rw [hgap.skipBlank, hcs, List.cons_append, hsolid.skipBlank]
      have hread : Toml.statement? (c :: (more ++ tail)) = some (s, tail) := by
        have h := hs.statement? htail
        rwa [hcs, List.cons_append] at h
      rw [List.length_cons, ← Nat.add_assoc, Toml.statementsWithin?, hskip]
      simp only [Option.bind_eq_bind, Option.bind_some, hread, htail.endLine?, ih]
      rfl

/-- No statement is empty, so that there are at most `cs.length` of them. -/
theorem Laid.length_le {statements : List Statement} {cs : List Char} (h : Laid statements cs) :
    statements.length ≤ cs.length := by
  induction h with
  | nil _ => exact Nat.zero_le _
  | cons _ hs htail _ ih =>
      obtain ⟨c, more, hcs, _⟩ := hs.cons
      have hrest := htail.length_le
      rw [hcs]
      simp only [List.length_append, List.length_cons]
      omega

/-- No layout opens with a byte order mark, `\uFEFF`. -/
theorem Laid.head?_ne_mark {statements : List Statement} {cs : List Char} (h : Laid statements cs) :
    cs.head? ≠ some '\uFEFF' := by
  have hgap : ∀ {gap : List Char}, Gap gap → gap.head? ≠ some '\uFEFF' := by
    rintro gap hgap hmark
    cases hgap with
    | nil => cases hmark
    | space hc _ => cases hmark; cases hc
    | lineFeed _ => cases hmark
    | carriageReturn _ => cases hmark
  cases h with
  | nil h => exact hgap h
  | @cons s statements gap cs tail rest h hs _ _ =>
      cases gap with
      | nil =>
          obtain ⟨c, more, rfl, _, hc⟩ := hs.cons
          exact fun hmark => hc (Option.some.inj hmark)
      | cons c gap => exact fun hmark => hgap h hmark

/-- **The statements of a text**, `statements?`, are those it lays out. -/
theorem Laid.statements? {statements : List Statement} {cs : List Char} (h : Laid statements cs) :
    statements? cs = some statements := by
  have hmark := h.head?_ne_mark
  have hread : Toml.statementsWithin? (cs.length + 1) cs = some statements := by
    have hfuel : cs.length + 1 = cs.length - statements.length + 1 + statements.length := by
      have hlength := h.length_le
      omega
    rw [hfuel]
    exact h.statementsWithin? _
  unfold Toml.statements?
  split
  · exact absurd rfl hmark
  · exact hread

/-- **Whatever can be written can be laid out**, `Laid`, one statement after the other. -/
theorem exists_laid {statements : List Statement} (h : ∀ s ∈ statements, ∃ cs, WrittenStatement s cs) :
    ∃ cs, Laid statements cs := by
  induction statements with
  | nil => exact ⟨[], .nil .nil⟩
  | cons s statements ih =>
      obtain ⟨cs, hcs⟩ := h s List.mem_cons_self
      obtain ⟨rest, hrest⟩ := ih fun s hs => h s (List.mem_cons_of_mem _ hs)
      exact ⟨[] ++ (cs ++ '\n' :: rest), .cons .nil hcs (.lineFeed rest) hrest⟩

/-! ## Groups -/

/-- Assignments to single keys, of the form `([key], value)`. -/
def keyed (entries : List (String × Value)) : List Assignment := entries.map fun e => ([e.1], e.2)

/-- The statements that assign to single keys, an `.assign` for each of `keyed`. -/
def assigns (entries : List (String × Value)) : List Statement :=
  (keyed entries).map fun a => .assign a.1 a.2

/-- The statements of tables: for each a `.header` of its name, and then its assignments. -/
def tableStatements (tables : List (String × List (String × Value))) : List Statement :=
  tables.flatMap fun t => .header [t.1] :: assigns t.2

theorem group_assigns (entries : List (String × Value)) (rest : List Statement) :
    group (assigns entries ++ rest) = (keyed entries ++ (group rest).1, (group rest).2) := by
  induction entries with
  | nil => rfl
  | cons e entries ih =>
      show group (.assign [e.1] e.2 :: (assigns entries ++ rest)) = _
      rw [group, ih]
      rfl

theorem group_tableStatements (tables : List (String × List (String × Value))) :
    group (tableStatements tables) = ([], tables.map fun t => (.table [t.1], keyed t.2)) := by
  induction tables with
  | nil => rfl
  | cons t tables ih =>
      show group (.header [t.1] :: (assigns t.2 ++ tableStatements tables)) = _
      rw [group, group_assigns, ih, List.append_nil]
      rfl

/-! ## Slots -/

theorem Slots.put_fresh {slots : Slots} {key : String} (h : key ∉ slots.map Prod.fst) (node : Node) :
    Slots.put key node slots = slots ++ [(key, node)] := by
  induction slots with
  | nil => rfl
  | cons slot slots ih =>
      rw [List.map_cons, List.mem_cons, not_or] at h
      rw [Slots.put, if_neg fun heq => h.1 heq.symm, ih h.2]
      rfl

theorem Slots.get?_fresh {slots : Slots} {key : String} (h : key ∉ slots.map Prod.fst) :
    slots.get? key = none := by
  rw [Slots.get?, List.lookup_eq_none_iff]
  intro slot hslot
  exact bne_iff_ne.mpr fun heq => h (List.mem_map.mpr ⟨slot, hslot, heq.symm⟩)

/-- A distinct list `as ++ a :: bs` has `a` once, which can be moved to the end of `as`. -/
theorem nodup_append_cons {α : Type} {as bs : List α} {a : α} (h : (as ++ a :: bs).Nodup) :
    a ∉ as ∧ (as ++ [a] ++ bs).Nodup := by
  rw [List.append_assoc]
  exact ⟨fun ha => (List.nodup_append.mp h).2.2 a ha a List.mem_cons_self rfl, h⟩

/-- **Assignments to new keys** take their places at the end, by `assignAll?`. -/
theorem assignAll?_fresh (entries : List (String × Value)) (slots : Slots)
    (h : (slots.map Prod.fst ++ entries.map Prod.fst).Nodup) :
    slots.assignAll? (keyed entries) = some (slots ++ entries.map fun e => (e.1, .value e.2)) := by
  induction entries generalizing slots with
  | nil => rw [List.map_nil, List.append_nil]; rfl
  | cons e entries ih =>
      obtain ⟨hfresh, hrest⟩ := nodup_append_cons h
      have hassign : slots.assign? [e.1] e.2 = some (slots ++ [(e.1, .value e.2)]) := by
        rw [Slots.assign?, Slots.assignFrom?, Slots.get?_fresh hfresh, Slots.put_fresh hfresh]
        rfl
      show (slots.assign? [e.1] e.2).bind (fun slots => slots.assignAll? (keyed entries)) = _
      rw [hassign, Option.bind_some, ih, List.append_assoc]
      · rfl
      · rwa [List.map_append]

/-- **Tables of new names** take their places at the end, by `addGroup?`. -/
theorem addGroups?_fresh (tables : List (String × List (String × Value))) (slots : Slots)
    (hnames : (slots.map Prod.fst ++ tables.map Prod.fst).Nodup)
    (hkeys : ∀ t ∈ tables, (t.2.map Prod.fst).Nodup) :
    (tables.map fun t => (Header.table [t.1], keyed t.2)).foldlM Slots.addGroup? slots
      = some (slots ++ tables.map fun t => (t.1, .table .header (t.2.map fun e => (e.1, .value e.2)))) := by
  induction tables generalizing slots with
  | nil => rw [List.map_nil, List.map_nil, List.append_nil]; rfl
  | cons t tables ih =>
      obtain ⟨hfresh, hrest⟩ := nodup_append_cons hnames
      have hinner : Slots.assignAll? [] (keyed t.2) = some (t.2.map fun e => (e.1, .value e.2)) :=
        assignAll?_fresh t.2 [] (hkeys t List.mem_cons_self)
      have hadd : slots.addGroup? (.table [t.1], keyed t.2)
          = some (slots ++ [(t.1, .table .header (t.2.map fun e => (e.1, .value e.2)))]) := by
        simp only [Slots.addGroup?, Slots.alter?, Slots.get?_fresh hfresh, hinner, Option.map_some,
          Slots.put_fresh hfresh]
      rw [List.map_cons, List.foldlM_cons, hadd, Option.bind_eq_bind, Option.bind_some, ih, List.append_assoc]
      · rfl
      · rwa [List.map_append]
      · exact fun t ht => hkeys t (List.mem_cons_of_mem _ ht)

theorem entriesOf_eq_map (slots : Slots) : entriesOf slots = slots.map fun slot => (slot.1, slot.2.toValue) := by
  induction slots with
  | nil => rw [entriesOf]; rfl
  | cons slot slots ih => rw [entriesOf, ih]; rfl

/-- The entries of slots that hold values: `entriesOf` takes each as it is. -/
theorem entriesOf_values (entries : List (String × Value)) :
    entriesOf (entries.map fun e => (e.1, .value e.2)) = entries := by
  have hvalue : ∀ e ∈ entries, (e.1, (Node.value e.2).toValue) = e := by
    intro e _
    rw [Node.toValue]
  rw [entriesOf_eq_map, List.map_map]
  exact (List.map_congr_left hvalue).trans (List.map_id entries)

/-! ## Documents -/

/-- The entries of a document: those of its own, `top`, and its tables. -/
def documentEntries (top : List (String × Value)) (tables : List (String × List (String × Value))) :
    List (String × Value) :=
  top ++ tables.map fun t => (t.1, .table t.2)

/-- **A plain document reads as its entries**, `documentEntries top tables`, as long as no key and no name is
    given twice. -/
theorem ofText?_plain {top : List (String × Value)} {tables : List (String × List (String × Value))}
    {text : String} (htext : Laid (assigns top ++ tableStatements tables) text.toList)
    (hnames : (top.map Prod.fst ++ tables.map Prod.fst).Nodup)
    (hkeys : ∀ t ∈ tables, (t.2.map Prod.fst).Nodup) :
    ofText? text = some (documentEntries top tables) := by
  have htop : (top.map Prod.fst).Nodup := (List.nodup_append.mp hnames).1
  have hslots : (top.map fun e => (e.1, Node.value e.2)).map Prod.fst = top.map Prod.fst := by
    rw [List.map_map]; rfl
  -- first the assignments of the document, and then a table for each header
  have hassign : Slots.assignAll? [] (keyed top) = some (top.map fun e => (e.1, .value e.2)) :=
    assignAll?_fresh top [] htop
  have hadd := addGroups?_fresh tables (top.map fun e => (e.1, .value e.2)) (by rwa [hslots]) hkeys
  have hentries : entriesOf (top.map (fun e => (e.1, .value e.2))
      ++ tables.map fun t => (t.1, .table .header (t.2.map fun e => (e.1, .value e.2))))
      = documentEntries top tables := by
    rw [entriesOf_eq_map, List.map_append, ← entriesOf_eq_map, entriesOf_values, documentEntries, List.map_map]
    congr 1
    refine List.map_congr_left fun t _ => ?_
    rw [Function.comp, Node.toValue, entriesOf_values]
  rw [ofText?, htext.statements?, Option.bind_some, ofStatements?, group_assigns, group_tableStatements,
    List.append_nil]
  simp only [Option.bind_eq_bind, hassign, hadd, Option.bind_some, hentries]
  rfl

end TestHarness.Toml
