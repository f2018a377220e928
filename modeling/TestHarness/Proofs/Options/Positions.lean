import Mathlib.Data.List.Pairwise
import Mathlib.Data.List.Perm.Basic
import TestHarness.Proofs.Options.Acceptance

/-!
# Sections by position

A section of the options is a table, which gives its settings by their names, or an array, which gives them by
their positions. The two say the same (`array_as_table`): the array is read in the order of the fields, and the
table that names its items is read in the order of the names, but the fields of a section can be read in any
order (`InAnyOrder`). Only if reading fails does the order show, in which of the faults comes first; so all
statements here are about what is read, and not about faults.

The same holds one level up, where the section stands among other entries.
-/

namespace TestHarness

open Toml (Value)

/-! ## Fields in any order -/

section

variable {σ : Type}

/-- **Fields in either order.** Reading `f` and then `g` gives what reading them the other way round gives, if
    it gives anything. -/
def Field.Independent (f g : Field σ) : Prop :=
  ∀ v w s s', (∃ t, f.read v s = .ok t ∧ g.read w t = .ok s') ↔ ∃ t, g.read w s = .ok t ∧ f.read v t = .ok s'

/-- Fields of which any two with different names are `Independent`. -/
def InAnyOrder (fields : List (Field σ)) : Prop :=
  ∀ f ∈ fields, ∀ g ∈ fields, f.name ≠ g.name → f.Independent g

theorem Field.Independent.symm {f g : Field σ} (h : f.Independent g) : g.Independent f :=
  fun v w s s' => (h w v s s').symm

/-- What a field reads does not depend on the section, so for two of `ofReader` only setting the parts has to
    commute. -/
theorem Field.independent_ofReader {α β : Type} {name name' : String} {reader : ReadValue α}
    {reader' : ReadValue β} {set : α → σ → σ} {set' : β → σ → σ}
    (hset : ∀ a b s, set' b (set a s) = set a (set' b s)) :
    (Field.ofReader name reader set).Independent (.ofReader name' reader' set') := by
  intro v w s s'
  simp only [Field.ofReader]
  cases reader v with
  | error fault => cases reader' w <;> simp [Except.map]
  | ok a =>
      cases reader' w with
      | error fault => simp [Except.map]
      | ok b => simp [Except.map, hset]

theorem inAnyOrder_of_pairwise {fields : List (Field σ)} (h : fields.Pairwise Field.Independent) :
    InAnyOrder fields := by
  have hsymm : Std.Symm (Field.Independent (σ := σ)) := ⟨fun _ _ => Field.Independent.symm⟩
  intro f hf g hg hne
  exact h.forall hf hg fun heq => hne (congrArg Field.name heq)

/-! ## Entries in any order -/

variable {fields : List (Field σ)} {entries entries' : List (String × Value)} {s s' : σ}

theorem foldlM_cons_eq_ok_iff {e : String × Value} :
    (e :: entries).foldlM (readEntry fields) s = .ok s'
      ↔ ∃ t, readEntry fields s e = .ok t ∧ entries.foldlM (readEntry fields) t = .ok s' := by
  rw [List.foldlM_cons]
  cases readEntry fields s e with
  | error fault => exact ⟨nofun, nofun⟩
  | ok t => exact ⟨fun h => ⟨t, rfl, h⟩, fun ⟨_, ht, h⟩ => Except.ok.inj ht ▸ h⟩

theorem name_of_find? {key : String} {f : Field σ} (h : fields.find? (·.name == key) = some f) :
    f.name = key := by
  simpa using List.find?_some h

/-- Two entries with different keys, read by `readEntry`, can be read in either order. -/
theorem InAnyOrder.readEntry (h : InAnyOrder fields) {a b : String × Value} (hne : a.1 ≠ b.1)
    (s s' : σ) : (∃ t, readEntry fields s a = .ok t ∧ readEntry fields t b = .ok s')
      ↔ ∃ t, readEntry fields s b = .ok t ∧ readEntry fields t a = .ok s' := by
  simp only [TestHarness.readEntry]
  cases hf : fields.find? (·.name == a.1) with
  | none => simp
  | some f =>
      cases hg : fields.find? (·.name == b.1) with
      | none => simp
      | some g =>
          have hnames : f.name ≠ g.name := by rwa [name_of_find? hf, name_of_find? hg]
          exact h f (List.mem_of_find?_eq_some hf) g (List.mem_of_find?_eq_some hg) hnames a.2 b.2 s s'

/-- **Any order of the entries gives the same**, `entries.Perm entries'`, if no key is given twice. -/
theorem InAnyOrder.foldlM_perm (h : InAnyOrder fields) (hperm : entries.Perm entries')
    (hdistinct : (entries.map Prod.fst).Nodup) (s s' : σ) :
    entries.foldlM (TestHarness.readEntry fields) s = .ok s'
      ↔ entries'.foldlM (TestHarness.readEntry fields) s = .ok s' := by
  -- by induction on the permutation; only a swap of two neighbours needs the fields
  induction hperm generalizing s with
  | nil => exact Iff.rfl
  | cons e _ ih =>
      rw [foldlM_cons_eq_ok_iff, foldlM_cons_eq_ok_iff]
      simp only [ih (List.nodup_cons.mp hdistinct).2]
  | swap a b rest =>
      have hne : b.1 ≠ a.1 := fun heq => (List.nodup_cons.mp hdistinct).1 (heq ▸ List.mem_cons_self)
      simp only [foldlM_cons_eq_ok_iff]
      constructor
      · rintro ⟨t, hb, t', ha, hrest⟩
        obtain ⟨u, ha, hb⟩ := (h.readEntry hne s t').mp ⟨t, hb, ha⟩
        exact ⟨u, ha, t', hb, hrest⟩
      · rintro ⟨t, ha, t', hb, hrest⟩
        obtain ⟨u, hb, ha⟩ := (h.readEntry hne s t').mpr ⟨t, ha, hb⟩
        exact ⟨u, hb, t', ha, hrest⟩
  | trans hleft _ ihleft ihright =>
      exact (ihleft hdistinct s).trans (ihright ((hleft.map Prod.fst).nodup_iff.mp hdistinct) s)

/-- Sorting the entries makes no difference to what `readTable` reads. -/
theorem InAnyOrder.readTable_eq_ok_iff (h : InAnyOrder fields) (hperm : entries.Perm entries')
    (hdistinct : (entries.map Prod.fst).Nodup) (s s' : σ) :
    readTable fields s entries = .ok s' ↔ entries'.foldlM (TestHarness.readEntry fields) s = .ok s' := by
  have hsorted : (sortEntries entries).Perm entries := List.mergeSort_perm _ _
  have hnodup := ((hsorted.map Prod.fst).nodup_iff).mpr hdistinct
  exact h.foldlM_perm (hsorted.trans hperm) hnodup s s'

/-! ## Arrays -/

/-- **An array is read like the entries that name its items**, those of `zip`, in the order of the fields. -/
theorem readArray_eq_foldlM {part : List (Field σ)}
    (hpart : ∀ f ∈ part, fields.find? (·.name == f.name) = some f) (s : σ) (items : List Value) :
    readArray part s items = ((part.map Field.name).zip items).foldlM (readEntry fields) s := by
  induction part generalizing s items with
  | nil => rfl
  | cons f part ih =>
      obtain ⟨hf, hpart⟩ := List.forall_mem_cons.mp hpart
      cases items with
      | nil => rfl
      | cons v items =>
          have hread : readEntry fields s (f.name, v) = f.read v s := by rw [readEntry, hf]
          rw [List.map_cons, List.zip_cons_cons, List.foldlM_cons, hread, readArray]
          cases f.read v s with
          | error fault => rfl
          | ok t => exact ih hpart t items

theorem find?_name (hnames : (fields.map Field.name).Nodup) {f : Field σ} (hf : f ∈ fields) :
    fields.find? (·.name == f.name) = some f := by
  cases hfind : fields.find? (·.name == f.name) with
  | none => exact absurd (beq_self_eq_true f.name) (List.find?_eq_none.mp hfind f hf)
  | some g =>
      rw [List.inj_on_of_nodup_map hnames (List.mem_of_find?_eq_some hfind) hf (name_of_find? hfind)]

/-- **An array is read like any table that names its items**: `readArray` gives what `readTable` gives. -/
theorem InAnyOrder.readArray_eq_ok_iff (h : InAnyOrder fields) (hnames : (fields.map Field.name).Nodup)
    {items : List Value} (hperm : entries.Perm ((fields.map Field.name).zip items))
    (hdistinct : (entries.map Prod.fst).Nodup) (s s' : σ) :
    readArray fields s items = .ok s' ↔ readTable fields s entries = .ok s' := by
  rw [h.readTable_eq_ok_iff hperm hdistinct, readArray_eq_foldlM fun f hf => find?_name hnames hf]

end

/-! ## Sections -/

namespace Options

/-- **The sections** of the options, `runner`, `output` and `tests`: each with its name, the names of its
    settings in their order, the section of given options, and the section that entries give. -/
inductive IsSection : {σ : Type} → String → List String → (Options → σ) → (List (String × Value) → σ) → Prop where
  | runner : IsSection "runner" ["timeout_secs", "kill_grace_ms", "poll_interval_ms"] runner RunnerOptions.given
  | output : IsSection "output" ["header_width"] output OutputOptions.given
  | tests : IsSection "tests" ["processors", "output_dir"] tests TestOptions.given

/-- **How a section is read**, as `readSection` does it: its fields have the given names and can be read in
    any order, a table gives what its entries give, and what was read takes its own place in the options. -/
structure IsRead {σ : Type} (name : String) (names : List String) (get : Options → σ)
    (given : List (String × Value) → σ) (title : String) (fields : List (Field σ)) (default : σ)
    (set : σ → Options → Options) : Prop where
  names_eq : fields.map Field.name = names
  distinct : names.Nodup
  anyOrder : InAnyOrder fields
  told : ∀ entries s, (Value.table entries).Distinct → readTable fields default entries = .ok s → s = given entries
  field : Options.fields.find? (·.name == name) = some (.ofReader name (readSection title fields default) set)
  get_set : ∀ s o, get (set s o) = s

/-- What `readTable` reads is what the entries tell, and so what they give. -/
theorem eq_given_of_readTable {σ : Type} {settings : List (Setting σ)} {fields : List (Field σ)} {default : σ}
    {given : List (String × Value) → σ} {parts : List (String × Shape)} (title : String)
    (hfits : Fits settings fields) (hdecided : List.Forall₂ Shape.Decided fields parts)
    (htakes : List.Forall₂ Setting.Takes settings parts) (hleaves : ∀ p ∈ parts, ∀ v, ¬ p.2.ByItems v)
    (hgiven : ∀ {s entries}, Tells settings default s entries → s = given entries)
    (entries : List (String × Value)) (s : σ) (hdistinct : (Value.table entries).Distinct)
    (hread : readTable fields default entries = .ok s) : s = given entries := by
  have hitems : ¬ (Shape.record title parts).ByItems (.table entries) := by
    intro hitems
    obtain ⟨items, heq⟩ := hitems.eq_array hleaves
    cases heq
  obtain ⟨hadmits, -⟩ | ⟨path, fault, -, hfault⟩ := Shape.decides_readTable hdecided hdistinct hitems default
  · obtain ⟨s', htells⟩ := hfits.tells_of_admits htakes hdistinct hadmits
    rw [htells.readTable hfits, Except.ok.injEq] at hread
    exact hread ▸ hgiven htells
  · rw [hfault] at hread
    cases hread

end Options

open List TestHarness.Field in
theorem RunnerOptions.inAnyOrder : InAnyOrder fields :=
  inAnyOrder_of_pairwise <|
    .cons (forall_mem_cons.mpr ⟨independent_ofReader fun _ _ _ => rfl,
      forall_mem_singleton.mpr (independent_ofReader fun _ _ _ => rfl)⟩) <|
    .cons (forall_mem_singleton.mpr (independent_ofReader fun _ _ _ => rfl)) (pairwise_singleton _ _)

theorem OutputOptions.inAnyOrder : InAnyOrder fields :=
  inAnyOrder_of_pairwise (List.pairwise_singleton _ _)

open List TestHarness.Field in
theorem TestOptions.inAnyOrder : InAnyOrder fields :=
  inAnyOrder_of_pairwise <|
    .cons (forall_mem_singleton.mpr (independent_ofReader fun _ _ _ => rfl)) (pairwise_singleton _ _)

namespace Options

open List TestHarness.Field in
theorem inAnyOrder : InAnyOrder fields :=
  inAnyOrder_of_pairwise <|
    .cons (forall_mem_cons.mpr ⟨independent_ofReader fun _ _ _ => rfl, forall_mem_cons.mpr
      ⟨independent_ofReader fun _ _ _ => rfl, forall_mem_singleton.mpr (independent_ofReader fun _ _ _ => rfl)⟩⟩) <|
    .cons (forall_mem_cons.mpr ⟨independent_ofReader fun _ _ _ => rfl,
      forall_mem_singleton.mpr (independent_ofReader fun _ _ _ => rfl)⟩) <|
    .cons (forall_mem_singleton.mpr (independent_ofReader fun _ _ _ => rfl)) (pairwise_singleton _ _)

theorem isRead_runner : IsRead "runner" ["timeout_secs", "kill_grace_ms", "poll_interval_ms"] runner
    RunnerOptions.given "RunnerOptions" RunnerOptions.fields {} fun s o => { o with runner := s } where
  names_eq := rfl
  distinct := by decide
  anyOrder := RunnerOptions.inAnyOrder
  told := eq_given_of_readTable "RunnerOptions" RunnerOptions.fits RunnerOptions.decided RunnerOptions.takes
    (by simp [RunnerOptions.parts, Shape.not_byItems_number]) RunnerOptions.eq_given
  field := rfl
  get_set := fun _ _ => rfl

theorem isRead_output : IsRead "output" ["header_width"] output
    OutputOptions.given "OutputOptions" OutputOptions.fields {} fun s o => { o with output := s } where
  names_eq := rfl
  distinct := by decide
  anyOrder := OutputOptions.inAnyOrder
  told := eq_given_of_readTable "OutputOptions" OutputOptions.fits OutputOptions.decided OutputOptions.takes
    (by simp [OutputOptions.parts, Shape.not_byItems_number]) OutputOptions.eq_given
  field := rfl
  get_set := fun _ _ => rfl

theorem isRead_tests : IsRead "tests" ["processors", "output_dir"] tests
    TestOptions.given "TestOptions" TestOptions.fields {} fun s o => { o with tests := s } where
  names_eq := rfl
  distinct := by decide
  anyOrder := TestOptions.inAnyOrder
  told := eq_given_of_readTable "TestOptions" TestOptions.fits TestOptions.decided TestOptions.takes
    (by simp [TestOptions.parts, Shape.not_byItems_number, Shape.not_byItems_path]) TestOptions.eq_given
  field := rfl
  get_set := fun _ _ => rfl

section

variable {σ : Type} {name title : String} {names : List String} {get : Options → σ}
  {given : List (String × Value) → σ} {fields : List (Field σ)} {default : σ} {set : σ → Options → Options}
  {entries entries' rest table : List (String × Value)} {items : List Value} {v v' : Value} {o o' : Options}

theorem IsSection.isRead (h : IsSection name names get given) :
    ∃ title fields default set, IsRead name names get given title fields default set := by
  cases h with
  | runner => exact ⟨_, _, _, _, isRead_runner⟩
  | output => exact ⟨_, _, _, _, isRead_output⟩
  | tests => exact ⟨_, _, _, _, isRead_tests⟩

/-- The entry of a section is read by `readSection`, and `set` puts the section in its place. -/
theorem IsRead.readEntry_eq_ok_iff (h : IsRead name names get given title fields default set) :
    readEntry Options.fields o (name, v) = .ok o'
      ↔ ∃ s, readSection title fields default v = .ok s ∧ set s o = o' := by
  simp only [readEntry, h.field, Field.ofReader]
  cases readSection title fields default v with
  | error fault => simp [Except.map]
  | ok s => simp [Except.map]

/-- **A section by its items**, an `.array`, is the section by their names, a `.table`. -/
theorem IsRead.array_iff_table (h : IsRead name names get given title fields default set)
    (hperm : table.Perm (names.zip items)) (hdistinct : (table.map Prod.fst).Nodup) (s : σ) :
    readSection title fields default (.array items) = .ok s
      ↔ readSection title fields default (.table table) = .ok s := by
  rw [← h.names_eq] at hperm
  exact h.anyOrder.readArray_eq_ok_iff (h.names_eq ▸ h.distinct) hperm hdistinct default s

/-- What the items give is what the entries that name them give, `names.zip items`. -/
theorem IsRead.eq_given_of_array (h : IsRead name names get given title fields default set)
    (hperm : table.Perm (names.zip items)) (hdistinct : (Value.table table).Distinct) {s : σ}
    (hread : readSection title fields default (.array items) = .ok s) : s = given (names.zip items) := by
  have hkeys : ((names.zip items).map Prod.fst).Nodup := ((hperm.map Prod.fst).nodup_iff).mp hdistinct.keys
  have hvalues : ∀ e ∈ names.zip items, e.2.Distinct := fun e he => hdistinct.values e (hperm.mem_iff.mpr he)
  exact h.told _ s (.table hkeys hvalues) ((h.array_iff_table (.refl _) hkeys s).mp hread)

/-! ## Documents -/

theorem ofToml_eq_ofEntries {text : String} (h : Toml.ofText? text = some entries) :
    ofToml text = ofEntries entries := by
  rw [ofToml, h]

theorem ofEntries_eq_ok_iff :
    ofEntries entries = .ok o ↔ readTable Options.fields {} entries = .ok o ∧ o.validate = .ok () := by
  rw [ofEntries]
  constructor
  · intro h
    split at h
    · cases h
    · next hread =>
        split at h
        · cases h
        · next hvalid =>
            cases h
            exact ⟨hread, hvalid⟩
  · rintro ⟨hread, hvalid⟩
    simp only [hread, hvalid]

/-- **Two ways to give a section:** if `readSection` reads `v` as it reads `v'`, then `ofEntries` reads the
    documents alike. -/
theorem IsRead.ofEntries_congr (h : IsRead name names get given title fields default set)
    (hsection : ∀ s, readSection title fields default v = .ok s ↔ readSection title fields default v' = .ok s)
    (hperm : entries.Perm ((name, v) :: rest)) (hperm' : entries'.Perm ((name, v') :: rest))
    (hdistinct : (entries.map Prod.fst).Nodup) (hdistinct' : (entries'.map Prod.fst).Nodup) (o : Options) :
    ofEntries entries = .ok o ↔ ofEntries entries' = .ok o := by
  rw [ofEntries_eq_ok_iff, ofEntries_eq_ok_iff, inAnyOrder.readTable_eq_ok_iff hperm hdistinct,
    inAnyOrder.readTable_eq_ok_iff hperm' hdistinct', foldlM_cons_eq_ok_iff, foldlM_cons_eq_ok_iff]
  simp only [h.readEntry_eq_ok_iff, hsection]

/-- The section of the options, `get o`, is what was read as the section. -/
theorem IsRead.section_of_ofEntries (h : IsRead name names get given title fields default set)
    (hperm : entries.Perm ((name, v) :: rest)) (hdistinct : (entries.map Prod.fst).Nodup)
    (hread : ofEntries entries = .ok o) : readSection title fields default v = .ok (get o) := by
  -- the section may as well be read last
  have hlast : entries.Perm (rest ++ [(name, v)]) := hperm.trans (List.perm_append_singleton _ _).symm
  have hread := (inAnyOrder.readTable_eq_ok_iff hlast hdistinct {} o).mp (ofEntries_eq_ok_iff.mp hread).1
  rw [List.foldlM_append] at hread
  cases hrest : rest.foldlM (readEntry Options.fields) {} with
  | error fault =>
      rw [hrest] at hread
      cases hread
  | ok o' =>
      rw [hrest] at hread
      obtain ⟨o'', hentry, hend⟩ := foldlM_cons_eq_ok_iff.mp hread
      cases hend
      obtain ⟨s, hs, rfl⟩ := h.readEntry_eq_ok_iff.mp hentry
      rwa [h.get_set]

end

/-- **A section by position means the same as by name.** Take two documents that differ in one section: the
    one gives it as an array, the other as a table that names the items of the array, as far as there are
    names for them, `names.zip items`. Whatever else stands in the documents, the one is accepted by `ofToml`
    with some options if and only if the other is accepted with the same options. The section then has the
    settings that the items give, in the order of the names, and its defaults where there are no more items;
    and items for which there is no name make no difference. -/
theorem array_as_table {σ : Type} {name : String} {names : List String} {get : Options → σ}
    {given : List (String × Value) → σ} (hsection : IsSection name names get given)
    {text text' : String} {entries entries' rest table : List (String × Value)} {items : List Value}
    (hparse : Toml.ofText? text = some entries) (hparse' : Toml.ofText? text' = some entries')
    (harray : entries.Perm ((name, .array items) :: rest)) (htable : entries'.Perm ((name, .table table) :: rest))
    (hitems : table.Perm (names.zip items)) :
    (∀ o, ofToml text = .ok o ↔ ofToml text' = .ok o) ∧
    (∀ o, ofToml text = .ok o → get o = given (names.zip items)) ∧
    (∀ (more : List Value) (text'' : String) (entries'' : List (String × Value)), names.length ≤ items.length →
      Toml.ofText? text'' = some entries'' → entries''.Perm ((name, .array (items ++ more)) :: rest) →
      ∀ o, ofToml text = .ok o ↔ ofToml text'' = .ok o) := by
  obtain ⟨title, fields, default, set, hread⟩ := hsection.isRead
  have hkeys : ∀ {text entries}, Toml.ofText? text = some entries → (entries.map Prod.fst).Nodup :=
    fun h => (Toml.ofText?_distinct h).keys
  have hinner : (Value.table table).Distinct :=
    (Toml.ofText?_distinct hparse').values _ (htable.mem_iff.mpr List.mem_cons_self)
  -- what holds of any array that the table names the items of
  have hsame : ∀ {items text entries}, table.Perm (names.zip items) → Toml.ofText? text = some entries →
      entries.Perm ((name, .array items) :: rest) → ∀ o, ofToml text = .ok o ↔ ofToml text' = .ok o := by
    intro items text entries hitems hparse harray o
    rw [ofToml_eq_ofEntries hparse, ofToml_eq_ofEntries hparse']
    exact hread.ofEntries_congr (hread.array_iff_table hitems hinner.keys) harray htable
      (hkeys hparse) (hkeys hparse') o
  refine ⟨hsame hitems hparse harray, fun o ho => ?_, fun more text'' entries'' hle hparse'' harray'' o => ?_⟩
  · rw [ofToml_eq_ofEntries hparse] at ho
    exact hread.eq_given_of_array hitems hinner (hread.section_of_ofEntries harray (hkeys hparse) ho)
  · have hzip : names.zip (items ++ more) = names.zip items := by
      rw [List.zip_eq_zip_take_min, @List.zip_eq_zip_take_min _ _ names items, List.length_append,
        Nat.min_eq_left hle, Nat.min_eq_left (Nat.le_add_right_of_le hle), List.take_append_of_le_length hle]
    exact (hsame hitems hparse harray o).trans (hsame (hzip ▸ hitems) hparse'' harray'' o).symm

/-- The section `tests` by position, by name in the other order, and with an item too many. -/
theorem array_as_table_of_tests :
    let array := "tests=[3,'a']\nverbose=true\n"
    let table := "verbose=true\n[tests]\noutput_dir='a'\nprocessors=3\n"
    let longer := "verbose=true\ntests=[3,'a',false]\n"
    let o : Options := { verbose := true, tests := { processors := 3, outputDir := some (.ofString "a") } }
    IsSection "tests" ["processors", "output_dir"] tests TestOptions.given ∧
    Toml.ofText? array = some [("tests", .array [.integer 3, .string "a"]), ("verbose", .boolean true)] ∧
    Toml.ofText? table = some [("verbose", .boolean true),
      ("tests", .table [("output_dir", .string "a"), ("processors", .integer 3)])] ∧
    Toml.ofText? longer = some [("verbose", .boolean true),
      ("tests", .array [.integer 3, .string "a", .boolean false])] ∧
    ofToml table = .ok o ∧ ofToml array = .ok o ∧ ofToml longer = .ok o := by
  intro array table longer o
  have harray : Toml.ofText? array =
      some [("tests", .array [.integer 3, .string "a"]), ("verbose", .boolean true)] := by
    have hchars : array.toList =
        ['t', 'e', 's', 't', 's', '=', '[', '3', ',', '\'', 'a', '\'', ']', '\n', 'v', 'e', 'r', 'b', 'o',
         's', 'e', '=', 't', 'r', 'u', 'e', '\n'] := by
      decide +kernel
    rw [Toml.ofText?, hchars]
    rfl
  have htable : Toml.ofText? table = some [("verbose", .boolean true),
      ("tests", .table [("output_dir", .string "a"), ("processors", .integer 3)])] := by
    have hchars : table.toList =
        ['v', 'e', 'r', 'b', 'o', 's', 'e', '=', 't', 'r', 'u', 'e', '\n', '[', 't', 'e', 's', 't', 's',
         ']', '\n', 'o', 'u', 't', 'p', 'u', 't', '_', 'd', 'i', 'r', '=', '\'', 'a', '\'', '\n', 'p', 'r',
         'o', 'c', 'e', 's', 's', 'o', 'r', 's', '=', '3', '\n'] := by
      decide +kernel
    rw [Toml.ofText?, hchars]
    rfl
  have hlonger : Toml.ofText? longer = some [("verbose", .boolean true),
      ("tests", .array [.integer 3, .string "a", .boolean false])] := by
    have hchars : longer.toList =
        ['v', 'e', 'r', 'b', 'o', 's', 'e', '=', 't', 'r', 'u', 'e', '\n', 't', 'e', 's', 't', 's', '=',
         '[', '3', ',', '\'', 'a', '\'', ',', 'f', 'a', 'l', 's', 'e', ']', '\n'] := by
      decide +kernel
    rw [Toml.ofText?, hchars]
    rfl
  obtain ⟨hsame, -, hmore⟩ := array_as_table .tests harray htable (.refl _) (.swap _ _ _) (.swap _ _ _)
  have hentries : ofEntries [("tests", .array [.integer 3, .string "a"]), ("verbose", .boolean true)] = .ok o :=
    ofEntries_eq_ok_iff.mpr ⟨(inAnyOrder.readTable_eq_ok_iff (.refl _) (by decide) {} o).mpr rfl, rfl⟩
  have hread : ofToml array = .ok o := (ofToml_eq_ofEntries harray).trans hentries
  exact ⟨.tests, harray, htable, hlonger, (hsame o).mp hread, hread,
    (hmore [.boolean false] longer _ (by decide) hlonger (.swap _ _ _) o).mp hread⟩

end Options

end TestHarness
