import Mathlib.Data.List.Forall2
import TestHarness.Options.Decode
import TestHarness.Proofs.Text.Order
import TestHarness.Proofs.Toml.Distinct

/-!
# What sections take

A shape says what may be given: a truth value, a number up to a bound, a path, or a table with named parts
(`Shape`). Beside it stands what it means for a value to be of a shape (`Shape.Admits`), and which keys of a
value are at fault and why (`Shape.Offends`); of these the first one counts, when keys are visited depth first
and in the order of their octets (`Shape.First`).

Reading follows this: it gives a result exactly where the shape admits the value, and otherwise the fault of the
first key that offends (`Shape.Decides`). A table is judged entry by entry, so it suffices to know this of one
entry at a time, and the order in which entries are read makes the first one that is refused the first one that
offends (`decides_readTable`).
-/

namespace TestHarness

open Toml (Value)

/-! ## Shapes -/

/-- **What may be given**: a truth value, a number up to `max`, a path, or a table of named `parts`. -/
inductive Shape where
  | truth
  | number (type : String) (max : Nat)
  | path
  | record (title : String) (parts : List (String × Shape))

namespace Shape

/-- How a value of the shape is called where something else stands, `invalid type: ..., expected ...`. -/
def expected : Shape → String
  | truth => "a boolean"
  | number type _ => type
  | path => "path string"
  | record title _ => "struct " ++ title

/-- Values of the type that a shape asks for. A `record` is looked for in a table, in the items of an array,
    and in a date or time, which looks like a table. -/
inductive Suits : Shape → Value → Prop where
  | truth (b : Bool) : Suits truth (.boolean b)
  | number {type : String} {max : Nat} (n : Int) : Suits (number type max) (.integer n)
  | path (text : String) : Suits path (.string text)
  | table {title : String} {parts : List (String × Shape)} (entries : List (String × Value)) :
      Suits (record title parts) (.table entries)
  | array {title : String} {parts : List (String × Shape)} (items : List Value) :
      Suits (record title parts) (.array items)
  | datetime {title : String} {parts : List (String × Shape)} : Suits (record title parts) .datetime

/-- **Values of a shape.** Of a `record` these are the tables that have no key but the names of its parts, any
    of which may be missing. -/
inductive Admits : Shape → Value → Prop where
  | truth (b : Bool) : Admits truth (.boolean b)
  | number {type : String} {max : Nat} {n : Int} : 0 ≤ n → n ≤ max → Admits (number type max) (.integer n)
  | path (text : String) : Admits path (.string text)
  | table {title : String} {parts : List (String × Shape)} {entries : List (String × Value)} :
      (∀ e ∈ entries, parts.lookup e.1 ≠ none) →
      (∀ e ∈ entries, ∀ shape, parts.lookup e.1 = some shape → Admits shape e.2) →
      Admits (record title parts) (.table entries)

/-- **Keys at fault.** `shape.Offends v path fault` has the path of keys that leads there and what is
    wrong. -/
inductive Offends : Shape → Value → List String → FieldFault → Prop where
  /-- The value is of another type: the shape does not suit it, `¬ shape.Suits v`. -/
  | type {shape : Shape} {v : Value} : ¬ shape.Suits v → Offends shape v [] (ReadValue.mismatch shape.expected v)
  /-- The number is a word, `isWord`, and out of range. -/
  | range {type : String} {max : Nat} {n : Int} : ¬ (0 ≤ n ∧ n ≤ max) → Found.isWord n = true →
      Offends (number type max) (.integer n) [] (.wrongValue (.integer n) type)
  /-- The number is no word, `¬ isWord`, which makes it a value of another type. -/
  | width {type : String} {max : Nat} {n : Int} : ¬ (0 ≤ n ∧ n ≤ max) → Found.isWord n = false →
      Offends (number type max) (.integer n) [] (ReadValue.mismatch type (.integer n))
  /-- A date or time looks like a table with a key of its own, `datetimeKey`. -/
  | datetime {title : String} {parts : List (String × Shape)} :
      Offends (record title parts) .datetime [datetimeKey] (.unknown datetimeKey (parts.map Prod.fst))
  /-- There is no such part: `lookup` is `none`. -/
  | unknown {title : String} {parts : List (String × Shape)} {entries : List (String × Value)}
      {e : String × Value} : e ∈ entries → parts.lookup e.1 = none →
      Offends (record title parts) (.table entries) [e.1] (.unknown e.1 (parts.map Prod.fst))
  /-- The key at fault lies in a part, or is the part's own, `e.1`. -/
  | inside {title : String} {parts : List (String × Shape)} {entries : List (String × Value)}
      {e : String × Value} {shape : Shape} {path : List String} {fault : FieldFault} : e ∈ entries →
      parts.lookup e.1 = some shape → Offends shape e.2 path fault →
      Offends (record title parts) (.table entries) (e.1 :: path) fault

/-- **The first key at fault:** depth first, and in the order of the octets of the keys, `Utf8.encode`. -/
structure First (shape : Shape) (v : Value) (path : List String) (fault : FieldFault) : Prop where
  offends : shape.Offends v path fault
  least : ∀ path' fault', shape.Offends v path' fault' → path.map Utf8.encode ≤ path'.map Utf8.encode

/-- Values that give a `record`, of their own or in a part, by the items of an array. -/
inductive ByItems : Shape → Value → Prop where
  | array {title : String} {parts : List (String × Shape)} (items : List Value) :
      ByItems (record title parts) (.array items)
  | inside {title : String} {parts : List (String × Shape)} {entries : List (String × Value)}
      {e : String × Value} {shape : Shape} : e ∈ entries → parts.lookup e.1 = some shape →
      ByItems shape e.2 → ByItems (record title parts) (.table entries)

/-! ## Values and faults -/

variable {shape : Shape} {v : Value} {title : String} {parts : List (String × Shape)}
  {entries : List (String × Value)} {e : String × Value} {path : List String} {fault : FieldFault}

theorem Admits.suits (h : shape.Admits v) : shape.Suits v := by
  cases h with
  | truth b => exact .truth b
  | number _ _ => exact .number _
  | path text => exact .path text
  | table _ _ => exact .table _

/-- Nothing is at fault in a value that the shape `Admits`. -/
theorem Admits.not_offends (h : shape.Admits v) : ¬ shape.Offends v path fault := by
  intro hoff
  induction hoff with
  | type hsuits => exact hsuits h.suits
  | range hout _ =>
      cases h with
      | number hlow hhigh => exact hout ⟨hlow, hhigh⟩
  | width hout _ =>
      cases h with
      | number hlow hhigh => exact hout ⟨hlow, hhigh⟩
  | datetime => cases h
  | unknown he hlookup =>
      cases h with
      | table hknown _ => exact hknown _ he hlookup
  | inside he hlookup _ ih =>
      cases h with
      | table _ hinner => exact ih (hinner _ he _ hlookup)

theorem mem_of_lookup {key : String} (h : parts.lookup key = some shape) : (key, shape) ∈ parts := by
  obtain ⟨before, after, rfl, -⟩ := List.lookup_eq_some_iff.mp h
  exact List.mem_append_right _ List.mem_cons_self

theorem not_byItems_number {type : String} {max : Nat} (v : Value) : ¬ (number type max).ByItems v := nofun

theorem not_byItems_path (v : Value) : ¬ Shape.path.ByItems v := nofun

/-- A record without records in it is given by items only as a whole, by an `.array`. -/
theorem ByItems.eq_array (h : (record title parts).ByItems v) (hleaves : ∀ p ∈ parts, ∀ v, ¬ p.2.ByItems v) :
    ∃ items, v = .array items := by
  cases h with
  | array items => exact ⟨items, rfl⟩
  | inside _ hlookup hinner => exact absurd hinner (hleaves _ (mem_of_lookup hlookup) _)

/-- **A table is judged entry by entry**, each as a table `[e]` of its own. -/
theorem admits_table_iff : (record title parts).Admits (.table entries)
    ↔ ∀ e ∈ entries, (record title parts).Admits (.table [e]) := by
  constructor
  · intro h e he
    cases h with
    | table hknown hinner =>
        exact .table (List.forall_mem_singleton.mpr (hknown e he)) (List.forall_mem_singleton.mpr (hinner e he))
  · intro h
    refine .table (fun e he => ?_) fun e he => ?_
    · cases h e he with
      | table hknown _ => exact hknown e List.mem_cons_self
    · cases h e he with
      | table _ hinner => exact hinner e List.mem_cons_self

theorem offends_table_iff : (record title parts).Offends (.table entries) path fault
    ↔ ∃ e ∈ entries, (record title parts).Offends (.table [e]) path fault := by
  constructor
  · intro h
    cases h with
    | type hsuits => exact absurd (.table _) hsuits
    | unknown he hlookup => exact ⟨_, he, .unknown List.mem_cons_self hlookup⟩
    | inside he hlookup hinner => exact ⟨_, he, .inside List.mem_cons_self hlookup hinner⟩
  · rintro ⟨e, he, h⟩
    cases h with
    | type hsuits => exact absurd (.table _) hsuits
    | unknown he' hlookup => exact .unknown (List.mem_singleton.mp he' ▸ he) hlookup
    | inside he' hlookup hinner => exact .inside (List.mem_singleton.mp he' ▸ he) hlookup hinner

/-- What is at fault in an entry lies under its key, `e.1`. -/
theorem Offends.under_key (h : (record title parts).Offends (.table [e]) path fault) :
    ∃ rest, path = e.1 :: rest := by
  cases h with
  | type hsuits => exact absurd (.table _) hsuits
  | unknown he _ => exact ⟨[], by rw [List.mem_singleton.mp he]⟩
  | inside he _ _ => exact ⟨_, by rw [List.mem_singleton.mp he]⟩

/-- **What is wrong with a key is one thing**: at one path `Offends` has one fault. -/
theorem Offends.unique {fault' : FieldFault} (h : shape.Offends v path fault)
    (h' : shape.Offends v path fault') (hdistinct : v.Distinct) : fault = fault' := by
  induction h generalizing fault' with
  | type hsuits =>
      cases h' with
      | type _ => rfl
      | range _ _ => exact absurd (.number _) hsuits
      | width _ _ => exact absurd (.number _) hsuits
  | range hout hword =>
      cases h' with
      | type hsuits => exact absurd (.number _) hsuits
      | range _ _ => rfl
      | width _ hword' => rw [hword] at hword'; cases hword'
  | width hout hword =>
      cases h' with
      | type hsuits => exact absurd (.number _) hsuits
      | range _ hword' => rw [hword] at hword'; cases hword'
      | width _ _ => rfl
  | datetime =>
      cases h' with
      | datetime => rfl
  | @unknown _ _ _ e he hlookup =>
      generalize hpath : [e.1] = path at h'
      cases h' with
      | type hsuits => cases hpath
      | unknown _ _ => rw [(List.cons.inj hpath).1]
      | inside _ hlookup' _ => rw [(List.cons.inj hpath).1, hlookup'] at hlookup; cases hlookup
  | @inside _ _ _ e _ path _ he hlookup _ ih =>
      generalize hpath : e.1 :: path = path' at h'
      cases h' with
      | type hsuits => cases hpath
      | unknown _ hlookup' => rw [(List.cons.inj hpath).1, hlookup'] at hlookup; cases hlookup
      | inside he' hlookup' hinner =>
          cases hdistinct with
          | table hkeys hvalues =>
              -- the two entries have one key, so they are one
              obtain rfl := List.inj_on_of_nodup_map hkeys he he' (List.cons.inj hpath).1
              obtain rfl := (List.cons.inj hpath).2
              cases hlookup.symm.trans hlookup'
              exact ih hinner (hvalues _ he)

/-- **The first key at fault is one key**: `First` has one fault. -/
theorem First.unique {path' : List String} {fault' : FieldFault} (h : shape.First v path fault)
    (h' : shape.First v path' fault') (hdistinct : v.Distinct) : fault = fault' := by
  have hpath : path.map Utf8.encode = path'.map Utf8.encode :=
    List.le_antisymm (h.least _ _ h'.offends) (h'.least _ _ h.offends)
  obtain rfl := List.map_injective_iff.mpr (fun _ _ => Utf8.encode_injective) hpath
  exact h.offends.unique h'.offends hdistinct

/-- A fault of the value itself, at the path `[]`, is the first one. -/
theorem First.whole (h : shape.Offends v [] fault) : shape.First v [] fault :=
  ⟨h, fun _ _ _ => List.nil_le _⟩

/-- The first key at fault in a part is the first one in its entry, with `e.1` in front of its path. -/
theorem First.inside (hlookup : parts.lookup e.1 = some shape) (h : shape.First e.2 path fault) :
    (record title parts).First (.table [e]) (e.1 :: path) fault := by
  refine ⟨.inside List.mem_cons_self hlookup h.offends, fun path' fault' hoff => ?_⟩
  cases hoff with
  | type hsuits => exact absurd (.table _) hsuits
  | unknown he hlookup' =>
      rw [List.mem_singleton.mp he, hlookup] at hlookup'
      cases hlookup'
  | inside he hlookup' hinner =>
      obtain rfl := List.mem_singleton.mp he
      cases hlookup.symm.trans hlookup'
      exact List.cons_le_cons_iff.mpr (.inr ⟨rfl, h.least _ _ hinner⟩)

/-- **The entry with the least key:** if a key is at fault in it, the `First` one there is the first one of
    the table. -/
theorem First.of_least_key (h : (record title parts).First (.table [e]) path fault) (he : e ∈ entries)
    (hleast : ∀ e' ∈ entries, e' = e ∨ e.1 < e'.1) : (record title parts).First (.table entries) path fault := by
  refine ⟨offends_table_iff.mpr ⟨e, he, h.offends⟩, fun path' fault' hoff => ?_⟩
  obtain ⟨e', he', hoff'⟩ := offends_table_iff.mp hoff
  rcases hleast e' he' with rfl | hlt
  · exact h.least _ _ hoff'
  · obtain ⟨rest, rfl⟩ := h.offends.under_key
    obtain ⟨rest', rfl⟩ := hoff'.under_key
    have hlt : Utf8.encode e.1 < Utf8.encode e'.1 := (Utf8.encode_lt_encode_iff _ _).mpr hlt
    exact List.le_of_lt (List.cons_lt_cons_iff.mpr (.inl hlt))

/-! ## Reading a value -/

/-- **Reading a value of a shape.** In `shape.Decides v result` the shape admits the value and there is a
    result, or it does not and the result is the fault of the first key that offends. -/
def Decides {α : Type} (shape : Shape) (v : Value) (result : Except FieldFault α) : Prop :=
  (shape.Admits v ∧ ∃ a, result = .ok a) ∨ ∃ path fault, shape.First v path fault ∧ result = .error fault

section

variable {α β : Type}

theorem Decides.map {result : Except FieldFault α} (h : shape.Decides v result) (f : α → β) :
    shape.Decides v (result.map f) := by
  obtain ⟨hadmits, a, rfl⟩ | ⟨path, fault, hfirst, rfl⟩ := h
  · exact .inl ⟨hadmits, f a, rfl⟩
  · exact .inr ⟨path, fault, hfirst, rfl⟩

theorem decides_of_not_suits (h : ¬ shape.Suits v) :
    shape.Decides (α := α) v (.error (ReadValue.mismatch shape.expected v)) :=
  .inr ⟨[], _, .whole (.type h), rfl⟩

theorem decides_boolean (v : Value) : truth.Decides v (ReadValue.boolean v) := by
  cases v with
  | boolean b => exact .inl ⟨.truth b, b, rfl⟩
  | _ => exact decides_of_not_suits nofun

theorem decides_path (v : Value) : Shape.path.Decides v (ReadValue.path v) := by
  cases v with
  | string text => exact .inl ⟨.path text, _, rfl⟩
  | _ => exact decides_of_not_suits nofun

theorem decides_unsigned (type : String) (max : Nat) (v : Value) :
    (number type max).Decides v (ReadValue.unsigned type max v) := by
  cases v with
  | integer n =>
      rw [ReadValue.unsigned]
      by_cases hin : 0 ≤ n ∧ n ≤ max
      · rw [if_pos hin]
        exact .inl ⟨.number hin.1 hin.2, _, rfl⟩
      · rw [if_neg hin]
        by_cases hword : Found.isWord n = true
        · rw [if_pos hword]
          exact .inr ⟨[], _, .whole (.range hin hword), rfl⟩
        · rw [if_neg hword]
          exact .inr ⟨[], _, .whole (.width hin (Bool.eq_false_of_not_eq_true hword)), rfl⟩
  | _ => exact decides_of_not_suits nofun

end

/-! ## Reading a table -/

section

variable {σ : Type} {fields : List (Field σ)}

/-- **Entries in strictly ascending order** of their keys. If `readEntry` decides one at a time, then `foldlM`
    decides the table: what is read before the first entry that is refused is admitted, and what comes later
    has a larger key. -/
theorem decides_foldlM (hentry : ∀ e ∈ entries, ∀ s,
      (record title parts).Decides (.table [e]) (readEntry fields s e))
    (hsorted : entries.Pairwise fun a b => a.1 < b.1) (s : σ) :
    (record title parts).Decides (.table entries) (entries.foldlM (readEntry fields) s) := by
  induction entries generalizing s with
  | nil => exact .inl ⟨.table (List.forall_mem_nil _) (List.forall_mem_nil _), s, rfl⟩
  | cons e entries ih =>
      obtain ⟨hlater, hsorted⟩ := List.pairwise_cons.mp hsorted
      obtain ⟨he, hentries⟩ := List.forall_mem_cons.mp hentry
      obtain ⟨hadmits, s', hread⟩ | ⟨path, fault, hfirst, hread⟩ := he s
      · -- nothing is at fault in the entry, so the others decide
        rw [List.foldlM_cons, hread]
        obtain ⟨hrest, result⟩ | ⟨path, fault, hfirst, hread'⟩ := ih hentries hsorted s'
        · refine .inl ⟨admits_table_iff.mpr (List.forall_mem_cons.mpr ⟨hadmits, ?_⟩), result⟩
          exact admits_table_iff.mp hrest
        · refine .inr ⟨path, fault, ⟨?_, fun path' fault' hoff => ?_⟩, hread'⟩
          · obtain ⟨e', he', hoff⟩ := offends_table_iff.mp hfirst.offends
            exact offends_table_iff.mpr ⟨e', List.mem_cons_of_mem _ he', hoff⟩
          · obtain ⟨e', he', hoff'⟩ := offends_table_iff.mp hoff
            rcases List.mem_cons.mp he' with rfl | he'
            · exact absurd hoff' hadmits.not_offends
            · exact hfirst.least _ _ (offends_table_iff.mpr ⟨e', he', hoff'⟩)
      · -- the entry is refused, and its key is the least
        rw [List.foldlM_cons, hread]
        refine .inr ⟨path, fault, hfirst.of_least_key List.mem_cons_self ?_, rfl⟩
        exact List.forall_mem_cons.mpr ⟨.inl rfl, fun e' he' => .inr (hlater e' he')⟩

/-- Sorting distinct keys with `sortEntries` puts them in strictly ascending order. -/
theorem pairwise_sortEntries (hdistinct : (entries.map Prod.fst).Nodup) :
    (sortEntries entries).Pairwise fun a b => a.1 < b.1 := by
  have hperm : (sortEntries entries).Perm entries := List.mergeSort_perm _ _
  have hle : (sortEntries entries).Pairwise fun a b => a.1 ≤ b.1 := by
    refine (List.pairwise_mergeSort (fun a b c => ?_) (fun a b => ?_) entries).imp of_decide_eq_true
    · simpa using le_trans
    · simpa using le_total a.1 b.1
  have hne : (sortEntries entries).Pairwise fun a b => a.1 ≠ b.1 :=
    List.pairwise_map.mp ((hperm.map Prod.fst).nodup_iff.mpr hdistinct)
  exact (hle.and hne).imp fun h => lt_of_le_of_ne h.1 h.2

/-- The order of the entries makes no difference to what decides a table: `entries'.Perm entries`. -/
theorem Decides.perm {α : Type} {entries' : List (String × Value)} {result : Except FieldFault α}
    (h : (record title parts).Decides (.table entries') result) (hperm : entries'.Perm entries) :
    (record title parts).Decides (.table entries) result := by
  have hoffends : ∀ path fault, (record title parts).Offends (.table entries') path fault
      ↔ (record title parts).Offends (.table entries) path fault := by
    intro path fault
    have hentries : (∃ e ∈ entries', (record title parts).Offends (.table [e]) path fault)
        ↔ ∃ e ∈ entries, (record title parts).Offends (.table [e]) path fault := by
      simp only [hperm.mem_iff]
    exact offends_table_iff.trans (hentries.trans offends_table_iff.symm)
  obtain ⟨hadmits, result⟩ | ⟨path, fault, hfirst, hresult⟩ := h
  · refine .inl ⟨admits_table_iff.mpr fun e he => ?_, result⟩
    exact admits_table_iff.mp hadmits e (hperm.mem_iff.mpr he)
  · refine .inr ⟨path, fault, ⟨(hoffends _ _).mp hfirst.offends, fun _ _ hoff => ?_⟩, hresult⟩
    exact hfirst.least _ _ ((hoffends _ _).mpr hoff)

/-! ## Fields -/

/-- **A field of a shape**, `Decided`, has its name, and decides what stands under it. -/
structure Decided (field : Field σ) (part : String × Shape) : Prop where
  name : field.name = part.1
  read : ∀ v, v.Distinct → ¬ part.2.ByItems v → ∀ s, part.2.Decides v (field.read v s)

theorem decided_ofReader {α : Type} {name : String} {reader : ReadValue α} {set : α → σ → σ}
    (h : ∀ v, v.Distinct → ¬ shape.ByItems v → shape.Decides v (reader v)) :
    Decided (.ofReader name reader set) (name, shape) :=
  ⟨rfl, fun v hdistinct hitems s => (h v hdistinct hitems).map (set · s)⟩

theorem names_of_decided (h : List.Forall₂ Decided fields parts) :
    fields.map Field.name = parts.map Prod.fst := by
  induction h with
  | nil => rfl
  | cons hfield _ ih => rw [List.map_cons, List.map_cons, hfield.name, ih]

/-- The field of a key, by `find?`, is the one of the part with that name, by `lookup`. -/
theorem find?_of_decided (h : List.Forall₂ Decided fields parts) (key : String) :
    (parts.lookup key = none → fields.find? (·.name == key) = none) ∧
    ∀ shape, parts.lookup key = some shape →
      ∃ field, fields.find? (·.name == key) = some field ∧ Decided field (key, shape) := by
  induction h with
  | nil => exact ⟨fun _ => rfl, nofun⟩
  | @cons field part fields parts hfield _ ih =>
      rw [List.lookup_cons, List.find?_cons, hfield.name]
      by_cases heq : key = part.1
      · subst heq
        rw [beq_self_eq_true]
        exact ⟨nofun, fun shape hshape => ⟨field, rfl, Option.some.inj hshape ▸ hfield⟩⟩
      · rw [beq_eq_false_iff_ne.mpr heq, beq_eq_false_iff_ne.mpr (Ne.symm heq)]
        exact ih

/-- **One entry** is decided by `readEntry`. -/
theorem decides_readEntry (h : List.Forall₂ Decided fields parts) (hdistinct : e.2.Distinct)
    (hitems : ∀ shape, parts.lookup e.1 = some shape → ¬ shape.ByItems e.2) (s : σ) :
    (record title parts).Decides (.table [e]) (readEntry fields s e) := by
  rw [readEntry]
  cases hlookup : parts.lookup e.1 with
  | none =>
      rw [(find?_of_decided h e.1).1 hlookup, names_of_decided h]
      refine .inr ⟨[e.1], _, ⟨.unknown List.mem_cons_self hlookup, fun path' fault' hoff => ?_⟩, rfl⟩
      obtain ⟨rest, rfl⟩ := hoff.under_key
      exact List.IsPrefix.le ⟨rest.map Utf8.encode, rfl⟩
  | some shape =>
      obtain ⟨field, hfind, hfield⟩ := (find?_of_decided h e.1).2 shape hlookup
      rw [hfind]
      obtain ⟨hadmits, result⟩ | ⟨path, fault, hfirst, hread⟩ :=
        hfield.read e.2 hdistinct (hitems shape hlookup) s
      · refine .inl ⟨.table (List.forall_mem_singleton.mpr ?_) (List.forall_mem_singleton.mpr ?_), result⟩
        · rw [hlookup]
          exact Option.some_ne_none shape
        · intro shape' hlookup'
          cases hlookup.symm.trans hlookup'
          exact hadmits
      · exact .inr ⟨e.1 :: path, fault, hfirst.inside hlookup, hread⟩

/-- **A table** is read by `readTable` up to the first key that offends. -/
theorem decides_readTable (h : List.Forall₂ Decided fields parts) (hdistinct : (Value.table entries).Distinct)
    (hitems : ¬ (record title parts).ByItems (.table entries)) (s : σ) :
    (record title parts).Decides (.table entries) (readTable fields s entries) := by
  cases hdistinct with
  | table hkeys hvalues =>
      have hperm : (sortEntries entries).Perm entries := List.mergeSort_perm _ _
      refine (decides_foldlM (fun e he s => ?_) (pairwise_sortEntries hkeys) s).perm hperm
      have he := hperm.mem_iff.mp he
      exact decides_readEntry h (hvalues e he) (fun shape hlookup hinner => hitems (.inside he hlookup hinner)) s

/-- **A section** is decided by `readSection`, whatever stands there but an array. -/
theorem decides_readSection (h : List.Forall₂ Decided fields parts) (hkey : parts.lookup datetimeKey = none)
    (default : σ) (hdistinct : v.Distinct) (hitems : ¬ (record title parts).ByItems v) :
    (record title parts).Decides v (readSection title fields default v) := by
  cases v with
  | table entries => exact decides_readTable h hdistinct hitems default
  | array items => exact absurd (.array items) hitems
  | datetime =>
      have hread : readSection title fields default .datetime
          = .error (.unknown datetimeKey (parts.map Prod.fst)) := by
        rw [readSection, readTable, sortEntries, List.mergeSort_singleton, List.foldlM_cons, readEntry,
          (find?_of_decided h datetimeKey).1 hkey, names_of_decided h]
        rfl
      rw [hread]
      refine .inr ⟨[datetimeKey], _, ⟨.datetime, fun path' fault' hoff => ?_⟩, rfl⟩
      cases hoff with
      | type hsuits => exact absurd .datetime hsuits
      | datetime => exact List.le_refl _
  | _ => exact decides_of_not_suits nofun

end

end Shape

end TestHarness
