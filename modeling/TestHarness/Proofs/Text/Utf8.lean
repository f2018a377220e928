import TestHarness.Text.Utf8

/-!
# What the UTF-8 reader accepts

The reader is a machine that takes one octet at a time. Beside it stands the format itself: the octets of
one character, with the code point that they write (`Sequence`). The two are tied together character by
character:

* the machine reads the octets of a character as that character and is then between characters again
  (`scan_sequence`), and where it finds nothing ill-formed a character's octets come first
  (`exists_sequence`);
* a character's octets are the ones that writing it gives, and no others (`sequence_encode`,
  `Sequence.eq_encode`).

So the well-formed strings of octets are exactly the encodings of texts (`wellFormed_iff`), and reading
gives the text back (`decodeLossy_encode`). No character but the line feed has an octet of the line feed's
value last, so the octets of a text end their last line exactly where its characters do
(`getLast?_encode_eq_iff`).
-/

namespace TestHarness.Utf8

/-! ## The format -/

/-- An octet that continues a character, `80 .. BF`. -/
def IsTail (b : UInt8) : Prop := 0x80 ≤ b.toNat ∧ b.toNat ≤ 0xBF

/-- **The octets of one character**, with its code point. After some first octets the second one has a
    smaller range: it would otherwise write an overlong form (`E0`, `F0`), a surrogate (`ED`) or a number
    that is too large (`F4`). -/
inductive Sequence : Bytes → Nat → Prop where
  | one {a : UInt8} : a.toNat < 0x80 → Sequence [a] a.toNat
  | two {a b : UInt8} : 0xC2 ≤ a.toNat → a.toNat ≤ 0xDF → IsTail b →
      Sequence [a, b] ((a.toNat - 0xC0) * 64 + (b.toNat - 0x80))
  | three {a b c : UInt8} : 0xE0 ≤ a.toNat → a.toNat ≤ 0xEF → IsTail b → IsTail c →
      (a.toNat = 0xE0 → 0xA0 ≤ b.toNat) → (a.toNat = 0xED → b.toNat ≤ 0x9F) →
      Sequence [a, b, c] (((a.toNat - 0xE0) * 64 + (b.toNat - 0x80)) * 64 + (c.toNat - 0x80))
  | four {a b c d : UInt8} : 0xF0 ≤ a.toNat → a.toNat ≤ 0xF4 → IsTail b → IsTail c → IsTail d →
      (a.toNat = 0xF0 → 0x90 ≤ b.toNat) → (a.toNat = 0xF4 → b.toNat ≤ 0x8F) →
      Sequence [a, b, c, d]
        ((((a.toNat - 0xF0) * 64 + (b.toNat - 0x80)) * 64 + (c.toNat - 0x80)) * 64 + (d.toNat - 0x80))

/-- The number that the octets of a `Sequence` write is a character's. -/
theorem Sequence.isValidChar {bs : Bytes} {n : Nat} (h : Sequence bs n) : n.isValidChar := by
  unfold Nat.isValidChar
  cases h with
  | one ha => omega
  | two _ ha hb => unfold IsTail at hb; omega
  | three h₁ h₂ hb hc hlow hhigh => unfold IsTail at hb hc; omega
  | four h₁ h₂ hb hc hd hlow hhigh => unfold IsTail at hb hc hd; omega

theorem Sequence.toNat_ofNat {bs : Bytes} {n : Nat} (h : Sequence bs n) : (Char.ofNat n).toNat = n := by
  rw [Char.ofNat, dif_pos h.isValidChar]
  rfl

/-- A character has an octet: no `Sequence` is empty. -/
theorem Sequence.ne_nil {bs : Bytes} {n : Nat} (h : Sequence bs n) : bs ≠ [] := by
  cases h <;> exact List.cons_ne_nil _ _

/-! ## Written characters -/

theorem toNat_ofNat {n : Nat} (h : n < 256) : (UInt8.ofNat n).toNat = n := by
  rw [UInt8.toNat_ofNat', Nat.mod_eq_of_lt h]

/-- **Writing a character** gives octets of that character, a `Sequence` of `c.toNat`. -/
theorem sequence_encode (c : Char) : Sequence (String.utf8EncodeChar c) c.toNat := by
  have hvalid : c.toNat < 0xD800 ∨ (0xDFFF < c.toNat ∧ c.toNat < 0x110000) := c.valid
  unfold String.utf8EncodeChar
  rw [show c.val.toNat = c.toNat from rfl]
  generalize c.toNat = v at hvalid ⊢
  -- the four lengths; what is left are inequalities between remainders
  by_cases h1 : v ≤ 0x7F
  · rw [if_pos h1]
    have h := Sequence.one (a := UInt8.ofNat v) (by rw [toNat_ofNat (by omega)]; omega)
    rwa [toNat_ofNat (by omega)] at h
  by_cases h2 : v ≤ 0x7FF
  · rw [if_neg h1, if_pos h2]
    have h := Sequence.two (a := UInt8.ofNat (v / 64 % 32 + 192)) (b := UInt8.ofNat (v % 64 + 128))
    rw [IsTail, toNat_ofNat (by omega), toNat_ofNat (by omega)] at h
    have h := h (by omega) (by omega) (by omega)
    rwa [show (v / 64 % 32 + 192 - 192) * 64 + (v % 64 + 128 - 128) = v by omega] at h
  by_cases h3 : v ≤ 0xFFFF
  · rw [if_neg h1, if_neg h2, if_pos h3]
    have h := Sequence.three (a := UInt8.ofNat (v / 4096 % 16 + 224))
      (b := UInt8.ofNat (v / 64 % 64 + 128)) (c := UInt8.ofNat (v % 64 + 128))
    rw [IsTail, IsTail, toNat_ofNat (by omega), toNat_ofNat (by omega), toNat_ofNat (by omega)] at h
    have h := h (by omega) (by omega) (by omega) (by omega) (by omega) (by omega)
    rwa [show ((v / 4096 % 16 + 224 - 224) * 64 + (v / 64 % 64 + 128 - 128)) * 64
      + (v % 64 + 128 - 128) = v by omega] at h
  · rw [if_neg h1, if_neg h2, if_neg h3]
    have h := Sequence.four (a := UInt8.ofNat (v / 262144 % 8 + 240))
      (b := UInt8.ofNat (v / 4096 % 64 + 128)) (c := UInt8.ofNat (v / 64 % 64 + 128))
      (d := UInt8.ofNat (v % 64 + 128))
    rw [IsTail, IsTail, IsTail, toNat_ofNat (by omega), toNat_ofNat (by omega),
      toNat_ofNat (by omega), toNat_ofNat (by omega)] at h
    have h := h (by omega) (by omega) (by omega) (by omega) (by omega) (by omega) (by omega)
    rwa [show (((v / 262144 % 8 + 240 - 240) * 64 + (v / 4096 % 64 + 128 - 128)) * 64
      + (v / 64 % 64 + 128 - 128)) * 64 + (v % 64 + 128 - 128) = v by omega] at h

/-- **A character's octets are the written ones**, those of `String.utf8EncodeChar`. -/
theorem Sequence.eq_encode {bs : Bytes} {n : Nat} (h : Sequence bs n) :
    bs = String.utf8EncodeChar (Char.ofNat n) := by
  have hn : (Char.ofNat n).val.toNat = n := h.toNat_ofNat
  have hoctet : ∀ {b : UInt8} {m : Nat}, b.toNat = m → b = UInt8.ofNat m := fun h => by
    rw [← h, UInt8.ofNat_toNat]
  unfold String.utf8EncodeChar
  rw [hn]
  -- with the bounds of its octets, a sequence falls into one branch of the encoder
  cases h with
  | @one a ha =>
      rw [if_pos (by omega), UInt8.ofNat_toNat]
  | @two a b h₁ h₂ hb =>
      unfold IsTail at hb
      rw [if_neg (by omega), if_pos (by omega), ← hoctet (b := a) (by omega), ← hoctet (b := b) (by omega)]
  | @three a b c h₁ h₂ hb hc hlow hhigh =>
      unfold IsTail at hb hc
      rw [if_neg (by omega), if_neg (by omega), if_pos (by omega), ← hoctet (b := a) (by omega),
        ← hoctet (b := b) (by omega), ← hoctet (b := c) (by omega)]
  | @four a b c d h₁ h₂ hb hc hd hlow hhigh =>
      unfold IsTail at hb hc hd
      rw [if_neg (by omega), if_neg (by omega), if_neg (by omega), ← hoctet (b := a) (by omega),
        ← hoctet (b := b) (by omega), ← hoctet (b := c) (by omega), ← hoctet (b := d) (by omega)]

/-! ## Read characters -/

/-- **`Begins`** — what the machine does with a first octet `a`, and which octets it takes after it. -/
inductive Begins (a : UInt8) : List Report × State → Prop where
  | one : a.toNat < 0x80 → Begins a ([some (Char.ofNat a.toNat)], .between)
  | two : 0xC2 ≤ a.toNat → a.toNat ≤ 0xDF → Begins a ([], .inside (a.toNat - 0xC0) 0 0x80 0xBF)
  | three {low high : UInt8} : 0xE0 ≤ a.toNat → a.toNat ≤ 0xEF →
      (∀ b : UInt8, low.toNat ≤ b.toNat ∧ b.toNat ≤ high.toNat ↔
        IsTail b ∧ (a.toNat = 0xE0 → 0xA0 ≤ b.toNat) ∧ (a.toNat = 0xED → b.toNat ≤ 0x9F)) →
      Begins a ([], .inside (a.toNat - 0xE0) 1 low high)
  | four {low high : UInt8} : 0xF0 ≤ a.toNat → a.toNat ≤ 0xF4 →
      (∀ b : UInt8, low.toNat ≤ b.toNat ∧ b.toNat ≤ high.toNat ↔
        IsTail b ∧ (a.toNat = 0xF0 → 0x90 ≤ b.toNat) ∧ (a.toNat = 0xF4 → b.toNat ≤ 0x8F)) →
      Begins a ([], .inside (a.toNat - 0xF0) 2 low high)
  | illFormed : (0x80 ≤ a.toNat ∧ a.toNat ≤ 0xC1) ∨ 0xF5 ≤ a.toNat → Begins a ([none], .between)

theorem begins_begin (a : UInt8) : Begins a (begin a) := by
  have heq : ∀ {c : UInt8}, a = c ↔ a.toNat = c.toNat := UInt8.toNat_inj.symm
  unfold begin
  simp only [UInt8.lt_iff_toNat_lt, heq, UInt8.reduceToNat]
  by_cases h1 : a.toNat < 128
  · rw [if_pos h1]
    exact .one h1
  by_cases h2 : a.toNat < 194
  · rw [if_neg h1, if_pos h2]
    exact .illFormed (by omega)
  by_cases h3 : a.toNat < 224
  · rw [if_neg h1, if_neg h2, if_pos h3]
    exact .two (by omega) (by omega)
  rw [if_neg h1, if_neg h2, if_neg h3]
  -- the lead octets E0 and ED, and then F0 and F4, narrow the range of the second octet
  by_cases h4 : a.toNat = 224
  · have h := @Begins.three a 0xA0 0xBF (by omega) (by omega) fun b => by
      simp only [IsTail, UInt8.reduceToNat]; omega
    rw [h4] at h
    rw [if_pos h4]
    exact h
  by_cases h5 : a.toNat = 237
  · have h := @Begins.three a 0x80 0x9F (by omega) (by omega) fun b => by
      simp only [IsTail, UInt8.reduceToNat]; omega
    rw [h5] at h
    rw [if_neg h4, if_pos h5]
    exact h
  by_cases h6 : a.toNat < 240
  · rw [if_neg h4, if_neg h5, if_pos h6]
    exact .three (by omega) (by omega) fun b => by simp only [IsTail, UInt8.reduceToNat]; omega
  rw [if_neg h4, if_neg h5, if_neg h6]
  by_cases h7 : a.toNat = 240
  · have h := @Begins.four a 0x90 0xBF (by omega) (by omega) fun b => by
      simp only [IsTail, UInt8.reduceToNat]; omega
    rw [h7] at h
    rw [if_pos h7]
    exact h
  by_cases h8 : a.toNat < 244
  · rw [if_neg h7, if_pos h8]
    exact .four (by omega) (by omega) fun b => by simp only [IsTail, UInt8.reduceToNat]; omega
  by_cases h9 : a.toNat = 244
  · have h := @Begins.four a 0x80 0x8F (by omega) (by omega) fun b => by
      simp only [IsTail, UInt8.reduceToNat]; omega
    rw [h9] at h
    rw [if_neg h7, if_neg h8, if_pos h9]
    exact h
  · rw [if_neg h7, if_neg h8, if_neg h9]
    exact .illFormed (by omega)

section Scan

variable {code after : Nat} {low high b : UInt8}

theorem scan_inside_cons (h : low.toNat ≤ b.toNat ∧ b.toNat ≤ high.toNat) (rest : Bytes) :
    (State.inside code after low high).scan (b :: rest) = match after with
      | 0 => some (Char.ofNat (code * 64 + (b.toNat - 0x80))) :: scan rest
      | after + 1 => (State.inside (code * 64 + (b.toNat - 0x80)) after 0x80 0xBF).scan rest := by
  rw [← UInt8.le_iff_toNat_le, ← UInt8.le_iff_toNat_le] at h
  rw [State.scan, State.step, if_pos h]
  cases after <;> rfl

theorem scan_inside_tail (h : IsTail b) (rest : Bytes) :
    (State.inside code after 0x80 0xBF).scan (b :: rest) = match after with
      | 0 => some (Char.ofNat (code * 64 + (b.toNat - 0x80))) :: scan rest
      | after + 1 => (State.inside (code * 64 + (b.toNat - 0x80)) after 0x80 0xBF).scan rest :=
  @scan_inside_cons code after 0x80 0xBF b h rest

/-- **Inside a character** an octet of the range `low .. high` has to follow: the end, or any other octet, is
    reported as ill-formed. -/
theorem range_of_scan_inside {bs : Bytes} (h : none ∉ (State.inside code after low high).scan bs) :
    ∃ b rest, bs = b :: rest ∧ low.toNat ≤ b.toNat ∧ b.toNat ≤ high.toNat := by
  cases bs with
  | nil => exact absurd List.mem_cons_self h
  | cons b rest =>
      refine ⟨b, rest, rfl, Decidable.byContradiction fun hrange => ?_⟩
      rw [← UInt8.le_iff_toNat_le, ← UInt8.le_iff_toNat_le] at hrange
      rw [State.scan, State.step, if_neg hrange] at h
      exact h List.mem_cons_self

end Scan

theorem scan_cons (a : UInt8) (bs : Bytes) : scan (a :: bs) = (begin a).1 ++ (begin a).2.scan bs := rfl

/-- **A character's octets are read by `scan` as that character**, whatever follows them. -/
theorem scan_sequence {bs : Bytes} {n : Nat} (h : Sequence bs n) (rest : Bytes) :
    scan (bs ++ rest) = some (Char.ofNat n) :: scan rest := by
  -- every other kind of first octet contradicts the range that the sequence has for it
  cases h with
  | @one a ha₁ =>
      rw [List.singleton_append, scan_cons]
      have ha := begins_begin a
      generalize begin a = outcome at ha ⊢
      cases ha with
      | one _ => rfl
      | _ => omega
  | @two a b h₁ h₂ hb =>
      rw [List.cons_append, List.singleton_append, scan_cons]
      have ha := begins_begin a
      generalize begin a = outcome at ha ⊢
      cases ha with
      | two _ _ => exact scan_inside_tail hb rest
      | _ => omega
  | @three a b c h₁ h₂ hb hc hlow hhigh =>
      rw [List.cons_append, List.cons_append, List.singleton_append, scan_cons]
      have ha := begins_begin a
      generalize begin a = outcome at ha ⊢
      cases ha with
      | three _ _ hrange =>
          rw [List.nil_append, scan_inside_cons ((hrange b).mpr ⟨hb, hlow, hhigh⟩)]
          exact scan_inside_tail hc rest
      | _ => omega
  | @four a b c d h₁ h₂ hb hc hd hlow hhigh =>
      rw [List.cons_append, List.cons_append, List.cons_append, List.singleton_append, scan_cons]
      have ha := begins_begin a
      generalize begin a = outcome at ha ⊢
      cases ha with
      | four _ _ hrange =>
          rw [List.nil_append, scan_inside_cons ((hrange b).mpr ⟨hb, hlow, hhigh⟩)]
          exact (scan_inside_tail hc (d :: rest)).trans (scan_inside_tail hd rest)
      | _ => omega

/-- **Where nothing is ill-formed** (`none ∉ scan bs`), a character's octets come first. -/
theorem exists_sequence {bs : Bytes} (hne : bs ≠ []) (h : none ∉ scan bs) :
    ∃ first rest n, bs = first ++ rest ∧ Sequence first n := by
  obtain ⟨a, bs, rfl⟩ := List.exists_cons_of_ne_nil hne
  rw [scan_cons] at h
  have ha := begins_begin a
  generalize begin a = outcome at h ha
  cases ha with
  | one ha => exact ⟨[a], bs, _, rfl, .one ha⟩
  | two h₁ h₂ =>
      obtain ⟨b, rest, rfl, hb⟩ := range_of_scan_inside h
      exact ⟨[a, b], rest, _, rfl, .two h₁ h₂ hb⟩
  | three h₁ h₂ hrange =>
      obtain ⟨b, bs, rfl, hb⟩ := range_of_scan_inside h
      rw [List.nil_append, scan_inside_cons hb] at h
      obtain ⟨c, rest, rfl, hc⟩ := range_of_scan_inside h
      obtain ⟨hb, hlow, hhigh⟩ := (hrange b).mp hb
      exact ⟨[a, b, c], rest, _, rfl, .three h₁ h₂ hb hc hlow hhigh⟩
  | four h₁ h₂ hrange =>
      obtain ⟨b, bs, rfl, hb⟩ := range_of_scan_inside h
      rw [List.nil_append, scan_inside_cons hb] at h
      obtain ⟨c, bs, rfl, hc⟩ := range_of_scan_inside h
      simp only [scan_inside_cons hc] at h
      obtain ⟨d, rest, rfl, hd⟩ := range_of_scan_inside h
      obtain ⟨hb, hlow, hhigh⟩ := (hrange b).mp hb
      exact ⟨[a, b, c, d], rest, _, rfl, .four h₁ h₂ hb hc hd hlow hhigh⟩
  | illFormed _ => exact absurd List.mem_cons_self h

/-! ## Whole texts -/

theorem wellFormed_eq_true {bs : Bytes} : wellFormed bs = true ↔ none ∉ scan bs := by
  rw [wellFormed, List.all_eq_true]
  constructor
  · intro h hmem
    cases h none hmem
  · intro h report hmem
    cases report with
    | none => exact absurd hmem h
    | some c => rfl

/-- The reports of `scan` on an encoded text are its characters. -/
theorem scan_encode (cs : List Char) : scan (cs.flatMap String.utf8EncodeChar) = cs.map some := by
  induction cs with
  | nil => rfl
  | cons c cs ih =>
      rw [List.flatMap_cons, scan_sequence (sequence_encode c), Char.ofNat_toNat, ih, List.map_cons]

/-- **Writing and reading back**: `decodeLossy (encode text) = text`. -/
theorem decodeLossy_encode (text : String) : decodeLossy (encode text) = text := by
  have hsame : ∀ cs : List Char, (cs.map some).map (·.getD replacement) = cs := by
    intro cs
    rw [List.map_map]
    exact List.map_id cs
  rw [decodeLossy, encode, scan_encode, hsame, String.ofList_toList]

theorem wellFormed_encode (text : String) : wellFormed (encode text) = true := by
  rw [wellFormed_eq_true, encode, scan_encode]
  intro hmem
  obtain ⟨_, _, hnone⟩ := List.mem_map.mp hmem
  cases hnone

/-- What is ill-formed leaves a character behind, so a string of octets that `decodeLossy` reads as no text is
    `wellFormed`. -/
theorem wellFormed_of_decodeLossy {bs : Bytes} (h : decodeLossy bs = "") : wellFormed bs = true := by
  rw [decodeLossy, ← String.toList_eq_nil_iff, String.toList_ofList, List.map_eq_nil_iff] at h
  rw [wellFormed, h, List.all_nil]

/-- A string of octets in which nothing is ill-formed is made of the octets of characters, by
    `String.utf8EncodeChar`. -/
theorem exists_encode {bs : Bytes} (h : none ∉ scan bs) :
    ∃ cs : List Char, bs = cs.flatMap String.utf8EncodeChar := by
  -- by induction on the length: a character's octets are taken off at the front
  induction hlen : bs.length using Nat.strongRecOn generalizing bs with
  | ind len ih =>
      by_cases hne : bs = []
      · exact ⟨[], hne⟩
      · obtain ⟨first, rest, n, rfl, hseq⟩ := exists_sequence hne h
        rw [scan_sequence hseq] at h
        have hpos : 0 < first.length := List.length_pos_iff.mpr hseq.ne_nil
        rw [List.length_append] at hlen
        obtain ⟨cs, rfl⟩ := ih rest.length (by omega) (fun hmem => h (List.mem_cons_of_mem _ hmem)) rfl
        exact ⟨Char.ofNat n :: cs, by rw [List.flatMap_cons, ← hseq.eq_encode]⟩

/-- **The `wellFormed` strings of octets are the encodings of texts.** -/
theorem wellFormed_iff (bs : Bytes) : wellFormed bs = true ↔ ∃ text, bs = encode text := by
  constructor
  · intro h
    obtain ⟨cs, rfl⟩ := exists_encode (wellFormed_eq_true.mp h)
    exact ⟨String.ofList cs, by rw [encode, String.toList_ofList]⟩
  · rintro ⟨text, rfl⟩
    exact wellFormed_encode text

theorem encode_injective {a b : String} (h : encode a = encode b) : a = b := by
  rw [← decodeLossy_encode a, h, decodeLossy_encode]

/-- No character but the line feed, `0A`, has the line feed as its last octet. -/
theorem Sequence.getLast?_eq_iff {bs : Bytes} {n : Nat} (h : Sequence bs n) :
    bs.getLast? = some 0x0A ↔ n = 0x0A := by
  have hoctet : ∀ {b : UInt8}, some b = some 0x0A ↔ b.toNat = 0x0A := by
    intro b
    rw [Option.some_inj, ← UInt8.toNat_inj]
    rfl
  cases h with
  | one ha => exact hoctet
  | @two a b h₁ h₂ hb =>
      unfold IsTail at hb
      exact (hoctet (b := b)).trans (by omega)
  | @three a b c h₁ h₂ hb hc hlow hhigh =>
      unfold IsTail at hb hc
      exact (hoctet (b := c)).trans (by omega)
  | @four a b c d h₁ h₂ hb hc hd hlow hhigh =>
      unfold IsTail at hb hc hd
      exact (hoctet (b := d)).trans (by omega)

/-- **A text ends its last line where its octets do**: `0A` is the last octet exactly if `'\n'` is the last
    character. -/
theorem getLast?_encode_eq_iff (text : String) :
    (encode text).getLast? = some 0x0A ↔ text.toList.getLast? = some '\n' := by
  unfold encode
  rcases List.eq_nil_or_concat text.toList with hnil | ⟨cs, c, hcs⟩
  · rw [hnil]
    exact iff_of_false nofun nofun
  · have hseq := sequence_encode c
    obtain ⟨b, hb⟩ := List.getLast?_isSome.mpr hseq.ne_nil |> Option.isSome_iff_exists.mp
    rw [hcs, List.concat_eq_append, List.flatMap_append, List.flatMap_singleton, List.getLast?_append, hb,
      Option.some_or, ← hb, hseq.getLast?_eq_iff, List.getLast?_concat, Option.some_inj, ← Char.toNat_inj]
    rfl

theorem encode_eq_nil_iff (text : String) : encode text = [] ↔ text = "" := by
  unfold encode
  rw [List.flatMap_eq_nil_iff, ← String.toList_eq_nil_iff, List.eq_nil_iff_forall_not_mem]
  have hne : ∀ c, String.utf8EncodeChar c ≠ [] := fun c => (sequence_encode c).ne_nil
  exact forall_congr' fun c => ⟨fun h hmem => hne c (h hmem), fun h hmem => absurd hmem h⟩

end TestHarness.Utf8
