import TestHarness.Text.Utf8

/-!
# Paths

A path is a string of octets.  It is kept exactly as it was written: joining and taking the parent
work on the written form and never look at a file system, so `..` is a name like any other here.

## Contents
* `Path.join`
* `Path.parent`, with `Path.trimReversed`, which removes what a trailing `/` or `.` adds to a path
* `Path.parent_length`: a parent is written shorter than its path
* `Path.names`, the names that a file system walks through
-/

namespace TestHarness

/-- A path, as its octets. -/
structure Path where
  bytes : Bytes
deriving DecidableEq, Repr, Inhabited

namespace Path

/-- The octet between two names, that of `/`. -/
def slash : UInt8 := 0x2F

/-- The octet of the names `.` and `..`. -/
def dot : UInt8 := 0x2E

/-- The path written as a text, by its octets in UTF-8. -/
def ofString (text : String) : Path := ⟨Utf8.encode text⟩

/-- The path as a text for people: ill-formed runs are written as U+FFFD, by `Utf8.decodeLossy`. -/
def display (p : Path) : String := Utf8.decodeLossy p.bytes

/-- Whether the path starts at the root, with a `slash`. -/
def isAbsolute (p : Path) : Bool := p.bytes.head? == some slash

/-! ## Joining -/

/-- `p` followed by `q`.  An absolute `q` replaces `p`; otherwise one `/` stands between them, unless
    `p` is empty or already ends in one. -/
def join (p q : Path) : Path :=
  if q.isAbsolute then q
  else match p.bytes.getLast? with
    | none => q
    | some b => if b = slash then ⟨p.bytes ++ q.bytes⟩ else ⟨p.bytes ++ slash :: q.bytes⟩

/-! ## The parent -/

/-- The octets at the front that name no entry: the `/` of an absolute path, or the `.` that a
    relative path starts with. -/
def anchor (p : Path) : Bytes :=
  match p.bytes with
  | [] => []
  | b :: rest =>
    if b = slash then [slash]
    else if b = dot ∧ (rest = [] ∨ rest.head? = some slash) then [dot]
    else []

/-- The octets after the `anchor`. -/
def body (p : Path) : Bytes := p.bytes.drop p.anchor.length

/-- The last name of a body, reversed, and what stands before the `/` in front of it, reversed. -/
def splitLast (reversed : Bytes) : Bytes × Bytes :=
  (reversed.takeWhile (· ≠ slash), (reversed.dropWhile (· ≠ slash)).drop 1)

/-- Drops empty names and `.` from the end of a reversed body. -/
def trimReversed : Bytes → Bytes
  | [] => []
  | [b] => if b = slash ∨ b = dot then [] else [b]
  | b :: c :: rest =>
    if b = slash then trimReversed (c :: rest)
    else if b = dot ∧ c = slash then trimReversed rest
    else b :: c :: rest

/-- The path without its last name, in its written form. The root and the empty path have none,
    `none`; the parent of a single relative name is the empty path. -/
def parent (p : Path) : Option Path :=
  match trimReversed p.body.reverse with
  | [] => if p.anchor = [dot] then some ⟨[]⟩ else none
  | reversed => some ⟨p.anchor ++ (trimReversed (splitLast reversed).2).reverse⟩

/-! ### A parent is written shorter than its path -/

theorem length_trimReversed (bs : Bytes) : (trimReversed bs).length ≤ bs.length := by
  fun_induction trimReversed bs <;> simp <;> grind

theorem length_splitLast (bs : Bytes) (h : bs ≠ []) : (splitLast bs).2.length < bs.length := by
  have hlen : (bs.dropWhile (· ≠ slash)).length ≤ bs.length :=
    (List.dropWhile_sublist _).length_le
  have hpos : 0 < bs.length := List.length_pos_iff.2 h
  simp only [splitLast, List.length_drop]
  omega

theorem length_anchor (p : Path) : p.anchor.length ≤ p.bytes.length := by
  unfold anchor
  split
  · simp
  · rename_i b rest hbytes
    rw [hbytes]
    split
    · simp
    · split <;> simp

/-- The `parent` is written shorter than the path. -/
theorem parent_length {p q : Path} (h : p.parent = some q) : q.bytes.length < p.bytes.length := by
  have hbody : p.body.length = p.bytes.length - p.anchor.length := by simp [body]
  have hanchor := length_anchor p
  unfold parent at h
  split at h
  · split at h
    · rename_i hdot
      simp only [Option.some.injEq] at h
      subst h
      rw [hdot] at hanchor
      exact hanchor
    · simp at h
  · rename_i hne
    simp only [Option.some.injEq] at h
    subst h
    have h1 := length_trimReversed p.body.reverse
    have h2 := length_splitLast (trimReversed p.body.reverse) (by simpa using hne)
    have h3 := length_trimReversed (splitLast (trimReversed p.body.reverse)).2
    simp only [List.length_append, List.length_reverse] at *
    omega

/-! ## Names -/

/-- Splits octets at each `/`, keeping empty names. -/
def splitSlash : Bytes → List Bytes
  | [] => [[]]
  | b :: rest =>
    if b = slash then [] :: splitSlash rest
    else match splitSlash rest with
      | [] => [[b]]
      | name :: names => (b :: name) :: names

/-- The names of the path in order.  An empty name stands for a leading, repeated or trailing `/`. -/
def names (p : Path) : List Bytes := splitSlash p.bytes

end Path

end TestHarness
