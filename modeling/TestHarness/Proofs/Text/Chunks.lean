import TestHarness.Proofs.Text.Utf8

/-!
# Octets that are decoded in pieces

Decoding two pieces one after the other gives the same text as decoding them together, unless the cut
between them goes through a character. The exact condition looks at one octet behind the cut: the first
piece ends with the beginning of a character, and that octet still goes on with it (`CutsCharacter`). Then
the pieces give one character too many, and in every other case nothing differs (`decodeLossy_append_iff`).

The argument is about the state in which the first piece leaves the machine (`State.after`). It is inside a
character exactly if the piece ends with the beginning of one, and then it takes exactly the octets that go
on with it (`Awaits`, `cutsCharacter_iff`). An octet that it does not take is read as if the machine had
been between characters (`scan_of_refused`). One that it takes is no first octet: on its own it is reported
as ill-formed, and so is the open character in front of it, while the machine that goes on makes one report
of the two (`length_scan_of_taken`).
-/

namespace TestHarness.Utf8

/-! ## The machine between two pieces -/

namespace State

/-- The reports that are made by `step` while octets are read, before it is known whether more follow. -/
def reports (s : State) : Bytes → List Report
  | [] => []
  | b :: bs => (s.step b).1 ++ (s.step b).2.reports bs

/-- The state after octets, one `step` for each. -/
def after (s : State) : Bytes → State
  | [] => s
  | b :: bs => (s.step b).2.after bs

theorem after_append (s : State) (a b : Bytes) : s.after (a ++ b) = (s.after a).after b := by
  induction a generalizing s with
  | nil => rfl
  | cons x a ih => exact ih (s.step x).2

/-- **A `scan` in two parts**: the second goes on in the state that the first one ends in. -/
theorem scan_append (s : State) (a b : Bytes) : s.scan (a ++ b) = s.reports a ++ (s.after a).scan b := by
  induction a generalizing s with
  | nil => rfl
  | cons x a ih =>
      rw [List.cons_append, scan, ih, reports, after, List.append_assoc]

theorem scan_eq (s : State) (a : Bytes) : s.scan a = s.reports a ++ (s.after a).finish := by
  have h := s.scan_append a []
  rwa [List.append_nil] at h

/-- The octets that go on with the open character: those of the range `low .. high`. -/
def Takes : State → UInt8 → Prop
  | .between, _ => False
  | .inside _ _ low high, x => low.toNat ≤ x.toNat ∧ x.toNat ≤ high.toNat

theorem step_of_not_takes {code after : Nat} {low high x : UInt8}
    (h : ¬ (inside code after low high).Takes x) :
    (inside code after low high).step x = (none :: (begin x).1, (begin x).2) := by
  rw [Takes, ← UInt8.le_iff_toNat_le, ← UInt8.le_iff_toNat_le] at h
  rw [step, if_neg h]

theorem step_of_takes {code after : Nat} {low high x : UInt8}
    (h : (inside code after low high).Takes x) :
    ((inside code after low high).step x).2 = match after with
      | 0 => between
      | n + 1 => inside (code * 64 + (x.toNat - 0x80)) n 0x80 0xBF := by
  rw [Takes, ← UInt8.le_iff_toNat_le, ← UInt8.le_iff_toNat_le] at h
  rw [step, if_pos h]
  cases after <;> rfl

end State

/-! ## Beginnings of characters -/

/-- In a character only the first octet is no tail (`IsTail`). -/
theorem Sequence.isTail {a : UInt8} {bs : Bytes} {n : Nat} (h : Sequence (a :: bs) n) :
    ∀ b ∈ bs, IsTail b := by
  cases h with
  | one _ => exact List.forall_mem_nil _
  | two _ _ hb => exact List.forall_mem_singleton.mpr hb
  | three _ _ hb hc _ _ => exact List.forall_mem_cons.mpr ⟨hb, List.forall_mem_singleton.mpr hc⟩
  | four _ _ hb hc hd _ _ =>
      exact List.forall_mem_cons.mpr ⟨hb, List.forall_mem_cons.mpr ⟨hc, List.forall_mem_singleton.mpr hd⟩⟩

theorem Sequence.not_isTail {a : UInt8} {bs : Bytes} {n : Nat} (h : Sequence (a :: bs) n) :
    ¬ IsTail a := by
  unfold IsTail
  cases h <;> omega

/-- **What a beginning awaits**: an octet of the range `low .. high`, and after it that many tails. With
    these, and with nothing else, it is a character. -/
def Awaits (part : Bytes) (after : Nat) (low high : UInt8) : Prop :=
  ∀ x rest, (∃ n, Sequence (part ++ x :: rest) n) ↔
    (low.toNat ≤ x.toNat ∧ x.toNat ≤ high.toNat) ∧ rest.length = after ∧ ∀ y ∈ rest, IsTail y

theorem Awaits.exists_sequence {part : Bytes} {after : Nat} {low high x : UInt8}
    (h : Awaits part after low high) (hx : low.toNat ≤ x.toNat ∧ x.toNat ≤ high.toNat) :
    ∃ rest n, Sequence (part ++ x :: rest) n := by
  have htail : IsTail 0x80 := ⟨Nat.le_refl _, by simp only [UInt8.reduceToNat]; omega⟩
  obtain ⟨n, hn⟩ := (h x (List.replicate after 0x80)).mpr
    ⟨hx, List.length_replicate, fun y hy => List.eq_of_mem_replicate hy ▸ htail⟩
  exact ⟨_, n, hn⟩

/-- What goes on with a character, as its beginning `Awaits`, is a tail. -/
theorem Awaits.isTail {part : Bytes} {after : Nat} {low high x : UInt8}
    (h : Awaits part after low high) (hne : part ≠ [])
    (hx : low.toNat ≤ x.toNat ∧ x.toNat ≤ high.toNat) : IsTail x := by
  obtain ⟨a, part, rfl⟩ := List.exists_cons_of_ne_nil hne
  obtain ⟨rest, n, hseq⟩ := h.exists_sequence hx
  exact hseq.isTail x (List.mem_append_right _ List.mem_cons_self)

/-- One octet further, only tails, `80 .. BF`, are awaited. -/
theorem Awaits.next {part : Bytes} {after : Nat} {low high x : UInt8}
    (h : Awaits part (after + 1) low high) (hx : low.toNat ≤ x.toNat ∧ x.toNat ≤ high.toNat) :
    Awaits (part ++ [x]) after 0x80 0xBF := by
  intro y rest
  rw [List.append_assoc, List.singleton_append, h x (y :: rest), List.length_cons, List.forall_mem_cons,
    Nat.add_right_cancel_iff]
  constructor
  · rintro ⟨_, hlength, hy, hrest⟩
    exact ⟨hy, hlength, hrest⟩
  · rintro ⟨hy, hlength, hrest⟩
    exact ⟨hx, hlength, hy, hrest⟩

theorem awaits_two {a : UInt8} (h₁ : 0xC2 ≤ a.toNat) (h₂ : a.toNat ≤ 0xDF) : Awaits [a] 0 0x80 0xBF := by
  intro x rest
  rw [List.singleton_append]
  constructor
  · rintro ⟨n, hseq⟩
    cases hseq with
    | two _ _ hx => exact ⟨hx, rfl, List.forall_mem_nil _⟩
    | _ => omega
  · rintro ⟨hx, hlength, _⟩
    rw [List.length_eq_zero_iff.mp hlength]
    exact ⟨_, .two h₁ h₂ hx⟩

theorem awaits_three {a low high : UInt8} (h₁ : 0xE0 ≤ a.toNat) (h₂ : a.toNat ≤ 0xEF)
    (hrange : ∀ b : UInt8, low.toNat ≤ b.toNat ∧ b.toNat ≤ high.toNat ↔
      IsTail b ∧ (a.toNat = 0xE0 → 0xA0 ≤ b.toNat) ∧ (a.toNat = 0xED → b.toNat ≤ 0x9F)) :
    Awaits [a] 1 low high := by
  intro x rest
  rw [List.singleton_append, hrange]
  constructor
  · rintro ⟨n, hseq⟩
    cases hseq with
    | three _ _ hx hy hlow hhigh => exact ⟨⟨hx, hlow, hhigh⟩, rfl, List.forall_mem_singleton.mpr hy⟩
    | _ => omega
  · rintro ⟨⟨hx, hlow, hhigh⟩, hlength, htails⟩
    obtain ⟨y, rfl⟩ := List.length_eq_one_iff.mp hlength
    exact ⟨_, .three h₁ h₂ hx (htails y List.mem_cons_self) hlow hhigh⟩

theorem awaits_four {a low high : UInt8} (h₁ : 0xF0 ≤ a.toNat) (h₂ : a.toNat ≤ 0xF4)
    (hrange : ∀ b : UInt8, low.toNat ≤ b.toNat ∧ b.toNat ≤ high.toNat ↔
      IsTail b ∧ (a.toNat = 0xF0 → 0x90 ≤ b.toNat) ∧ (a.toNat = 0xF4 → b.toNat ≤ 0x8F)) :
    Awaits [a] 2 low high := by
  intro x rest
  rw [List.singleton_append, hrange]
  constructor
  · rintro ⟨n, hseq⟩
    cases hseq with
    | four _ _ hx hy hz hlow hhigh =>
        exact ⟨⟨hx, hlow, hhigh⟩, rfl, List.forall_mem_cons.mpr ⟨hy, List.forall_mem_singleton.mpr hz⟩⟩
    | _ => omega
  · rintro ⟨⟨hx, hlow, hhigh⟩, hlength, htails⟩
    obtain ⟨y, rest, rfl⟩ := List.exists_cons_of_length_eq_add_one hlength
    obtain ⟨z, rfl⟩ := List.length_eq_one_iff.mp (Nat.succ.inj hlength)
    obtain ⟨hy, hz⟩ := List.forall_mem_cons.mp htails
    exact ⟨_, .four h₁ h₂ hx hy (List.forall_mem_singleton.mp hz) hlow hhigh⟩

/-- **A first octet** opens a character, and the machine takes what it `Awaits`, or no character goes on after
    it. -/
theorem begin_cases (a : UInt8) :
    ((begin a).2 = .between ∧ ∀ x rest n, ¬ Sequence (a :: x :: rest) n) ∨
    ∃ code after low high, (begin a).2 = .inside code after low high ∧ Awaits [a] after low high := by
  have ha := begins_begin a
  generalize begin a = outcome at ha
  cases ha with
  | one _ => exact Or.inl ⟨rfl, fun x rest n hseq => by cases hseq <;> omega⟩
  | two h₁ h₂ => exact Or.inr ⟨_, _, _, _, rfl, awaits_two h₁ h₂⟩
  | three h₁ h₂ hrange => exact Or.inr ⟨_, _, _, _, rfl, awaits_three h₁ h₂ hrange⟩
  | four h₁ h₂ hrange => exact Or.inr ⟨_, _, _, _, rfl, awaits_four h₁ h₂ hrange⟩
  | illFormed _ => exact Or.inl ⟨rfl, fun x rest n hseq => by cases hseq <;> omega⟩

/-! ## Where the machine stands -/

/-- **The state tells what has been begun**: the machine is between characters, or inside the one that
    `part` begins, and awaits what `part` awaits. -/
def State.Reads : State → Bytes → Prop
  | .between, part => part = []
  | .inside _ after low high, part => part ≠ [] ∧ Awaits part after low high

theorem State.reads_begin (a : UInt8) : ∃ part, part <:+ [a] ∧ (begin a).2.Reads part := by
  rcases begin_cases a with ⟨hbegin, _⟩ | ⟨code, after, low, high, hbegin, hawaits⟩
  · exact ⟨[], List.nil_suffix, by rw [hbegin]; rfl⟩
  · exact ⟨[a], List.suffix_refl _, by rw [hbegin]; exact ⟨List.cons_ne_nil _ _, hawaits⟩⟩

/-- One octet on, `step` keeps `Reads`: the open character goes on with the octet, or that is read as a first
    octet. -/
theorem State.Reads.step {s : State} {part : Bytes} (h : s.Reads part) (x : UInt8) :
    ∃ next, next <:+ part ++ [x] ∧ ((s.step x).2).Reads next := by
  obtain ⟨fresh, hfresh, hbegin⟩ := State.reads_begin x
  have hfresh : fresh <:+ part ++ [x] := hfresh.trans (List.suffix_append part [x])
  cases s with
  | between => exact ⟨fresh, hfresh, hbegin⟩
  | inside code after low high =>
      by_cases hx : (State.inside code after low high).Takes x
      · rw [step_of_takes hx]
        cases after with
        | zero => exact ⟨[], List.nil_suffix, rfl⟩
        | succ after =>
            have hne : part ++ [x] ≠ [] := List.append_ne_nil_of_right_ne_nil part (List.cons_ne_nil x [])
            exact ⟨part ++ [x], List.suffix_refl _, hne, h.2.next hx⟩
      · rw [step_of_not_takes hx]
        exact ⟨fresh, hfresh, hbegin⟩

theorem State.Reads.after {s : State} {part : Bytes} (h : s.Reads part) (a : Bytes) :
    ∃ last, last <:+ part ++ a ∧ (s.after a).Reads last := by
  induction a generalizing s part with
  | nil =>
      rw [List.append_nil]
      exact ⟨part, List.suffix_refl part, h⟩
  | cons x a ih =>
      obtain ⟨next, hnext, hreads⟩ := h.step x
      obtain ⟨last, hlast, hreads⟩ := ih hreads
      obtain ⟨front, hfront⟩ := hnext
      refine ⟨last, hlast.trans ⟨front, ?_⟩, hreads⟩
      rw [← List.append_assoc, hfront, List.append_assoc, List.singleton_append]

/-- **The octets read so far end with what has been begun**: some suffix of them is what the state `Reads`. -/
theorem State.exists_reads (a : Bytes) : ∃ part, part <:+ a ∧ (State.between.after a).Reads part := by
  have hstart : State.between.Reads [] := rfl
  exact hstart.after a

/-- No state that the machine reaches takes a first octet: its `step` is `begin`. -/
theorem State.step_of_not_isTail {s : State} {part : Bytes} (hs : s.Reads part) {a : UInt8}
    (ha : ¬ IsTail a) : (s.step a).2 = (begin a).2 := by
  cases s with
  | between => rfl
  | inside code after low high =>
      rw [step_of_not_takes fun htakes => ha (hs.2.isTail hs.1 htakes)]

/-- The octets of a character lead through it: after some of them the state `Takes` the next one. -/
theorem State.takes_of_sequence {part : Bytes} {code after : Nat} {low high : UInt8}
    (h : Awaits part after low high) {more rest : Bytes} {x : UInt8} {n : Nat}
    (hseq : Sequence (part ++ more ++ x :: rest) n) :
    ((State.inside code after low high).after more).Takes x := by
  -- by induction on the octets that were taken already; each leaves one less to come
  induction more generalizing part code after low high with
  | nil =>
      rw [List.append_nil] at hseq
      exact ((h x rest).mp ⟨n, hseq⟩).1
  | cons y more ih =>
      rw [List.append_assoc, List.cons_append] at hseq
      obtain ⟨hy, hlength, _⟩ := (h y (more ++ x :: rest)).mp ⟨n, hseq⟩
      have htakes : (State.inside code after low high).Takes y := hy
      rw [State.after, step_of_takes htakes]
      cases after with
      | zero => exact absurd hlength (by simp)
      | succ after =>
          refine ih (h.next hy) ?_
          rw [List.append_assoc, List.append_assoc, List.singleton_append]
          exact hseq

/-! ## Cuts -/

/-- **A cut through a character**: `a` ends with octets that begin a character without ending it, and with
    the first octet of `b` they still begin one, the same or another. -/
def CutsCharacter (a b : Bytes) : Prop :=
  ∃ front part x rest, a = front ++ part ∧ part ≠ [] ∧ b = x :: rest ∧
    ∃ c : Char, part ++ [x] <+: String.utf8EncodeChar c

/-- **A cut goes through a character** (`CutsCharacter`) exactly if the machine `Takes` the octet behind
    it. -/
theorem cutsCharacter_iff (a b : Bytes) :
    CutsCharacter a b ↔ ∃ x rest, b = x :: rest ∧ (State.between.after a).Takes x := by
  constructor
  · rintro ⟨front, part, x, rest, rfl, hne, rfl, c, more, hc⟩
    refine ⟨x, rest, rfl, ?_⟩
    rw [List.append_assoc, List.singleton_append] at hc
    obtain ⟨first, part, rfl⟩ := List.exists_cons_of_ne_nil hne
    have hseq : Sequence ([first] ++ part ++ x :: more) c.toNat := by
      have h := sequence_encode c
      rwa [← hc] at h
    obtain ⟨_, _, hreads⟩ := State.exists_reads front
    rw [State.after_append, State.after, State.step_of_not_isTail hreads hseq.not_isTail]
    -- the first octet opens the character, since another one follows
    rcases begin_cases first with ⟨_, hsingle⟩ | ⟨code, after, low, high, hbegin, hawaits⟩
    · cases part with
      | nil => exact absurd hseq (hsingle _ _ _)
      | cons y part => exact absurd hseq (hsingle _ _ _)
    · rw [hbegin]
      exact State.takes_of_sequence hawaits hseq
  · rintro ⟨x, rest, rfl, htakes⟩
    obtain ⟨part, ⟨front, hfront⟩, hreads⟩ := State.exists_reads a
    generalize State.between.after a = s at htakes hreads
    cases s with
    | between => exact absurd htakes id
    | inside code after low high =>
        obtain ⟨more, n, hseq⟩ := hreads.2.exists_sequence htakes
        refine ⟨front, part, x, rest, hfront.symm, hreads.1, rfl, Char.ofNat n, more, ?_⟩
        rw [← hseq.eq_encode, List.append_assoc, List.singleton_append]

/-- **An octet that is not taken**, or none, is read as if the machine had been `.between` characters. -/
theorem scan_of_refused {s : State} {b : Bytes} (h : ∀ x rest, b = x :: rest → ¬ s.Takes x) :
    s.scan b = s.finish ++ scan b := by
  cases s with
  | between => rfl
  | inside code after low high =>
      cases b with
      | nil => rfl
      | cons x b =>
          rw [State.scan, State.step_of_not_takes (h x b rfl), scan_cons]
          rfl

/-- A tail on its own (`IsTail`) is ill-formed. -/
theorem scan_cons_tail {x : UInt8} (h : IsTail x) (bs : Bytes) : scan (x :: bs) = none :: scan bs := by
  rw [scan_cons]
  have hx := begins_begin x
  generalize begin x = outcome at hx ⊢
  unfold IsTail at h
  cases hx with
  | illFormed _ => rfl
  | _ => omega

/-- An open character that `Awaits` tails adds one report at most. -/
theorem length_scan_tails (code after : Nat) (bs : Bytes) :
    ((State.inside code after 0x80 0xBF).scan bs).length ≤ (scan bs).length + 1 := by
  induction bs generalizing code after with
  | nil => exact Nat.le_refl 1
  | cons x bs ih =>
      by_cases hx : IsTail x
      · rw [scan_inside_tail hx, scan_cons_tail hx, List.length_cons]
        cases after with
        | zero => exact Nat.le_succ _
        | succ after => exact Nat.le_succ_of_le (ih _ _)
      · have hrefused := scan_of_refused (s := .inside code after 0x80 0xBF) (b := x :: bs) fun y rest h => by
          cases h
          exact hx
        rw [hrefused]
        exact Nat.le_refl _

/-- **An octet that is taken** (`Takes`) and is a tail saves a report. -/
theorem length_scan_of_taken {s : State} {x : UInt8} (h : s.Takes x) (hx : IsTail x) (bs : Bytes) :
    (s.scan (x :: bs)).length < (s.finish ++ scan (x :: bs)).length := by
  cases s with
  | between => exact absurd h id
  | inside code after low high =>
      rw [scan_inside_cons h, scan_cons_tail hx, State.finish, List.singleton_append, List.length_cons,
        List.length_cons]
      cases after with
      | zero => exact Nat.lt_succ_self _
      | succ after => exact Nat.lt_succ_of_le (length_scan_tails _ after bs)

/-! ## Two pieces, and both together -/

theorem scan_append_of_not_cuts {a b : Bytes} (h : ¬ CutsCharacter a b) : scan (a ++ b) = scan a ++ scan b := by
  have hrefused : (State.between.after a).scan b = (State.between.after a).finish ++ scan b :=
    scan_of_refused fun x rest hb htakes => h ((cutsCharacter_iff a b).mpr ⟨x, rest, hb, htakes⟩)
  calc scan (a ++ b) = State.between.reports a ++ (State.between.after a).scan b := State.scan_append _ a b
    _ = State.between.reports a ++ ((State.between.after a).finish ++ scan b) := by rw [hrefused]
    _ = scan a ++ scan b := by rw [← List.append_assoc, ← State.scan_eq]; rfl

theorem length_scan_append_of_cuts {a b : Bytes} (h : CutsCharacter a b) :
    (scan (a ++ b)).length < (scan a ++ scan b).length := by
  obtain ⟨x, rest, rfl, htakes⟩ := (cutsCharacter_iff a b).mp h
  obtain ⟨part, _, hreads⟩ := State.exists_reads a
  have hx : IsTail x := by
    generalize State.between.after a = s at htakes hreads
    cases s with
    | between => exact absurd htakes id
    | inside code after low high => exact hreads.2.isTail hreads.1 htakes
  have hlength := length_scan_of_taken htakes hx rest
  have ha : scan a = State.between.reports a ++ (State.between.after a).finish := State.scan_eq _ a
  have hab : scan (a ++ x :: rest) = State.between.reports a ++ (State.between.after a).scan (x :: rest) :=
    State.scan_append _ a _
  rw [ha, hab, List.append_assoc, List.length_append, List.length_append]
  exact Nat.add_lt_add_left hlength _

/-- **Pieces and the whole** give the same text by `decodeLossy` exactly if no character is cut. -/
theorem decodeLossy_append_iff (a b : Bytes) :
    decodeLossy a ++ decodeLossy b = decodeLossy (a ++ b) ↔ ¬ CutsCharacter a b := by
  have hpieces : decodeLossy a ++ decodeLossy b
      = String.ofList ((scan a ++ scan b).map (·.getD replacement)) := by
    rw [decodeLossy, decodeLossy, ← String.ofList_append, List.map_append]
  rw [hpieces]
  constructor
  · intro heq hcut
    have hlength := congrArg List.length (String.ofList_injective heq)
    rw [List.length_map, List.length_map] at hlength
    exact absurd hlength (Nat.ne_of_gt (length_scan_append_of_cuts hcut))
  · intro hcut
    rw [decodeLossy, scan_append_of_not_cuts hcut]

/-- Where no character is cut (`CutsCharacter`), the whole is `wellFormed` if both pieces are. -/
theorem wellFormed_append {a b : Bytes} (h : ¬ CutsCharacter a b) :
    wellFormed (a ++ b) = (wellFormed a && wellFormed b) := by
  rw [wellFormed, scan_append_of_not_cuts h, List.all_append]
  rfl

end TestHarness.Utf8
