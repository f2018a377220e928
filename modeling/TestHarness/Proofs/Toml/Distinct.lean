import Mathlib.Data.List.Nodup
import TestHarness.Proofs.Toml.Plain

/-!
# No key is given twice

In every table of a document, however it was written and however deep it lies, each key stands once
(`ofText?_distinct`). A table under construction puts a new node in the place of the one that stood under
its key, so building keeps the keys apart (`Slots.Distinct`); what is nested is either built in the same way
or has been read as a value of its own.
-/

namespace TestHarness.Toml

/-! ## Values and nodes -/

/-- **Each key stands once** in every `.table` of a value. -/
inductive Value.Distinct : Value → Prop where
  | string (text : String) : Distinct (.string text)
  | integer (n : Int) : Distinct (.integer n)
  | float (x : Float) : Distinct (.float x)
  | boolean (b : Bool) : Distinct (.boolean b)
  | datetime : Distinct .datetime
  | array {items : List Value} : (∀ v ∈ items, Distinct v) → Distinct (.array items)
  | table {entries : List (String × Value)} : (entries.map Prod.fst).Nodup →
      (∀ e ∈ entries, Distinct e.2) → Distinct (.table entries)

theorem Value.Distinct.keys {entries : List (String × Value)} (h : (Value.table entries).Distinct) :
    (entries.map Prod.fst).Nodup := by
  cases h with
  | table hkeys _ => exact hkeys

theorem Value.Distinct.values {entries : List (String × Value)} (h : (Value.table entries).Distinct) :
    ∀ e ∈ entries, e.2.Distinct := by
  cases h with
  | table _ hvalues => exact hvalues

/-- Each key stands once in every table of a node: those of a `.value` too, and of all `.tables`. -/
inductive Node.Distinct : Node → Prop where
  | value {v : Value} : v.Distinct → Distinct (.value v)
  | table {origin : Origin} {slots : Slots} : (slots.map Prod.fst).Nodup →
      (∀ s ∈ slots, Distinct s.2) → Distinct (.table origin slots)
  | tables {last : Slots} {earlier : List Slots} :
      (∀ slots ∈ last :: earlier, (slots.map Prod.fst).Nodup) →
      (∀ slots ∈ last :: earlier, ∀ s ∈ slots, Distinct s.2) → Distinct (.tables last earlier)

/-- Each key stands once in a table under construction, and each of its nodes is `Distinct`. -/
structure Slots.Distinct (slots : Slots) : Prop where
  keys : (slots.map Prod.fst).Nodup
  nodes : ∀ s ∈ slots, s.2.Distinct

namespace Slots

theorem Distinct.nil : Distinct [] := ⟨List.nodup_nil, List.forall_mem_nil _⟩

/-- With `put` a key keeps its place, and a new one comes last. -/
theorem keys_put (key : String) (node : Node) (slots : Slots) :
    (put key node slots).map Prod.fst
      = if key ∈ slots.map Prod.fst then slots.map Prod.fst else slots.map Prod.fst ++ [key] := by
  induction slots with
  | nil => rfl
  | cons slot slots ih =>
      rw [put]
      by_cases heq : slot.1 = key
      · rw [if_pos heq, List.map_cons, List.map_cons, if_pos (heq ▸ List.mem_cons_self), heq]
      · rw [if_neg heq, List.map_cons, List.map_cons, ih]
        have hiff : key ∈ slot.1 :: slots.map Prod.fst ↔ key ∈ slots.map Prod.fst := by
          rw [List.mem_cons]
          exact or_iff_right fun h => heq h.symm
        by_cases hmem : key ∈ slots.map Prod.fst
        · rw [if_pos hmem, if_pos (hiff.mpr hmem)]
        · rw [if_neg hmem, if_neg fun h => hmem (hiff.mp h), List.cons_append]

theorem mem_put {key : String} {node : Node} {slots : Slots} {s : String × Node}
    (h : s ∈ put key node slots) : s = (key, node) ∨ s ∈ slots := by
  induction slots with
  | nil => exact Or.inl (List.mem_singleton.mp h)
  | cons slot slots ih =>
      rw [put] at h
      by_cases heq : slot.1 = key
      · rw [if_pos heq] at h
        exact (List.mem_cons.mp h).imp id (List.mem_cons_of_mem _)
      · rw [if_neg heq] at h
        rcases List.mem_cons.mp h with rfl | h
        · exact Or.inr List.mem_cons_self
        · exact (ih h).imp id (List.mem_cons_of_mem _)

/-- **Putting a node** that is `Distinct` keeps the keys apart. -/
theorem Distinct.put {slots : Slots} {node : Node} (h : slots.Distinct) (hnode : node.Distinct)
    (key : String) : (Slots.put key node slots).Distinct where
  keys := by
    rw [keys_put]
    by_cases hmem : key ∈ slots.map Prod.fst
    · rw [if_pos hmem]
      exact h.keys
    · rw [if_neg hmem]
      exact List.nodup_append.mpr ⟨h.keys, List.nodup_singleton _, fun a ha b hb =>
        List.mem_singleton.mp hb ▸ fun heq => hmem (heq ▸ ha)⟩
  nodes := by
    intro s hs
    rcases mem_put hs with rfl | hs
    · exact hnode
    · exact h.nodes s hs

theorem Distinct.get? {slots : Slots} (h : slots.Distinct) {key : String} {node : Node}
    (hget : slots.get? key = some node) : node.Distinct := by
  obtain ⟨_, _, hsplit, _⟩ := List.lookup_eq_some_iff.mp hget
  refine h.nodes (key, node) ?_
  rw [hsplit]
  exact List.mem_append_right _ List.mem_cons_self

theorem Distinct.ofTable {origin : Origin} {slots : Slots} (h : (Node.table origin slots).Distinct) :
    slots.Distinct := by
  cases h with
  | table hkeys hnodes => exact ⟨hkeys, hnodes⟩

theorem Distinct.toTable {slots : Slots} (h : slots.Distinct) (origin : Origin) :
    (Node.table origin slots).Distinct := .table h.keys h.nodes

theorem distinct_tables_iff {last : Slots} {earlier : List Slots} :
    (Node.tables last earlier).Distinct ↔ ∀ slots ∈ last :: earlier, Slots.Distinct slots := by
  constructor
  · intro h
    cases h with
    | tables hkeys hnodes => exact fun slots hmem => ⟨hkeys slots hmem, hnodes slots hmem⟩
  · intro h
    exact .tables (fun slots hmem => (h slots hmem).keys) fun slots hmem => (h slots hmem).nodes

/-- A new last table of an array, `.tables last' earlier`. -/
theorem Distinct.replaceLast {last last' : Slots} {earlier : List Slots}
    (h : (Node.tables last earlier).Distinct) (hlast : last'.Distinct) :
    (Node.tables last' earlier).Distinct := by
  rw [distinct_tables_iff, List.forall_mem_cons] at h ⊢
  exact ⟨hlast, h.2⟩

/-! ## Building -/

/-- A dotted key with its value, `assignFrom?`. Tables on the way keep their keys apart, and so does a new
    one. -/
theorem Distinct.assignFrom? {v : Value} (hv : v.Distinct) {keys : List String} {mayAdd : Bool}
    {slots slots' : Slots} (h : slots.Distinct) (hassign : slots.assignFrom? v mayAdd keys = some slots') :
    slots'.Distinct := by
  -- by induction on the dotted key; the last part is put, the others lead one table down
  induction keys generalizing mayAdd slots slots' with
  | nil => cases hassign
  | cons key keys ih =>
      cases keys with
      | nil =>
          rw [Slots.assignFrom?] at hassign
          obtain ⟨_, hput⟩ := Option.ite_none_right_eq_some.mp hassign
          cases hput
          exact h.put (.value hv) key
      | cons next keys =>
          rw [Slots.assignFrom?] at hassign
          · cases hget : slots.get? key with
            | none =>
                rw [hget] at hassign
                obtain ⟨inner, hinner, rfl⟩ := Option.map_eq_some_iff.mp hassign
                exact h.put ((ih .nil hinner).toTable _) key
            | some node =>
                have hnode := h.get? hget
                rw [hget] at hassign
                cases node with
                | value _ => cases hassign
                | tables last earlier =>
                    obtain ⟨inner, hinner, rfl⟩ := Option.map_eq_some_iff.mp hassign
                    have hlast := distinct_tables_iff.mp hnode last List.mem_cons_self
                    exact h.put (Distinct.replaceLast hnode (ih hlast hinner)) key
                | table origin slots =>
                    cases origin with
                    | header => cases hassign
                    | passed =>
                        obtain ⟨inner, hinner, rfl⟩ := Option.map_eq_some_iff.mp hassign
                        exact h.put ((ih (.ofTable hnode) hinner).toTable _) key
                    | dotted =>
                        obtain ⟨inner, hinner, rfl⟩ := Option.map_eq_some_iff.mp hassign
                        exact h.put ((ih (.ofTable hnode) hinner).toTable _) key
          · exact List.cons_ne_nil _ _

theorem Distinct.assignAll? {assignments : List Assignment} (hvalues : ∀ a ∈ assignments, a.2.Distinct)
    {slots slots' : Slots} (h : slots.Distinct) (hassign : slots.assignAll? assignments = some slots') :
    slots'.Distinct := by
  induction assignments generalizing slots with
  | nil => cases hassign; exact h
  | cons a assignments ih =>
      obtain ⟨hv, hvalues⟩ := List.forall_mem_cons.mp hvalues
      obtain ⟨inner, hinner, hrest⟩ := Option.bind_eq_some_iff.mp hassign
      exact ih hvalues (Distinct.assignFrom? hv h hinner) hrest

/-- **`KeepsDistinct`**: a change of nodes that keeps the keys apart, also where there was no node. -/
def KeepsDistinct (change : Option Node → Option Node) : Prop :=
  ∀ present node, (∀ n ∈ present, n.Distinct) → change present = some node → node.Distinct

/-- A header, `alter?`. The way leads through tables, new ones or present ones, and the last tables of
    arrays. -/
theorem Distinct.alter? {change : Option Node → Option Node} (hchange : KeepsDistinct change)
    {keys : List String} {slots slots' : Slots} (h : slots.Distinct)
    (halter : slots.alter? change keys = some slots') : slots'.Distinct := by
  -- as for a dotted key, but the last part is changed instead of assigned
  induction keys generalizing slots slots' with
  | nil => cases halter
  | cons key keys ih =>
      cases keys with
      | nil =>
          rw [Slots.alter?] at halter
          obtain ⟨node, hnode, rfl⟩ := Option.map_eq_some_iff.mp halter
          exact h.put (hchange _ _ (fun n hn => h.get? hn) hnode) key
      | cons next keys =>
          rw [Slots.alter?] at halter
          · cases hget : slots.get? key with
            | none =>
                rw [hget] at halter
                obtain ⟨inner, hinner, rfl⟩ := Option.map_eq_some_iff.mp halter
                exact h.put ((ih .nil hinner).toTable _) key
            | some node =>
                have hnode := h.get? hget
                rw [hget] at halter
                cases node with
                | value _ => cases halter
                | tables last earlier =>
                    obtain ⟨inner, hinner, rfl⟩ := Option.map_eq_some_iff.mp halter
                    have hlast := distinct_tables_iff.mp hnode last List.mem_cons_self
                    exact h.put (Distinct.replaceLast hnode (ih hlast hinner)) key
                | table origin slots =>
                    obtain ⟨inner, hinner, rfl⟩ := Option.map_eq_some_iff.mp halter
                    exact h.put ((ih (.ofTable hnode) hinner).toTable _) key
          · exact List.cons_ne_nil _ _

/-- A header's group, `addGroup?`. What it changes is a table that was only passed, or an array of tables. -/
theorem Distinct.addGroup? {keyed : Header × List Assignment} (hvalues : ∀ a ∈ keyed.2, a.2.Distinct)
    {slots slots' : Slots} (h : slots.Distinct) (hadd : slots.addGroup? keyed = some slots') :
    slots'.Distinct := by
  obtain ⟨header, assignments⟩ := keyed
  cases header with
  | table keys =>
      refine Distinct.alter? (fun present node hpresent hchange => ?_) h hadd
      cases present with
      | none =>
          obtain ⟨inner, hinner, rfl⟩ := Option.map_eq_some_iff.mp hchange
          exact (Distinct.assignAll? hvalues .nil hinner).toTable _
      | some present =>
          cases present with
          | value _ => cases hchange
          | tables _ _ => cases hchange
          | table origin slots =>
              cases origin with
              | header => cases hchange
              | dotted => cases hchange
              | passed =>
                  obtain ⟨inner, hinner, rfl⟩ := Option.map_eq_some_iff.mp hchange
                  exact (Distinct.assignAll? hvalues (.ofTable (hpresent _ rfl)) hinner).toTable _
  | element keys =>
      refine Distinct.alter? (fun present node hpresent hchange => ?_) h hadd
      cases present with
      | none =>
          obtain ⟨inner, hinner, rfl⟩ := Option.map_eq_some_iff.mp hchange
          exact distinct_tables_iff.mpr
            (List.forall_mem_singleton.mpr (Distinct.assignAll? hvalues .nil hinner))
      | some present =>
          cases present with
          | value _ => cases hchange
          | table _ _ => cases hchange
          | tables last earlier =>
              obtain ⟨inner, hinner, rfl⟩ := Option.map_eq_some_iff.mp hchange
              exact distinct_tables_iff.mpr (List.forall_mem_cons.mpr
                ⟨Distinct.assignAll? hvalues .nil hinner, distinct_tables_iff.mp (hpresent _ rfl)⟩)

end Slots

/-! ## Finished tables -/

theorem keys_entriesOf (slots : Slots) : (entriesOf slots).map Prod.fst = slots.map Prod.fst := by
  rw [entriesOf_eq_map, List.map_map]
  rfl

theorem tablesOf_eq_map (tables : List Slots) :
    tablesOf tables = tables.map fun slots => .table (entriesOf slots) := by
  induction tables with
  | nil => rw [tablesOf]; rfl
  | cons slots tables ih => rw [tablesOf, ih]; rfl

theorem distinct_entriesOf {slots : Slots} (hkeys : (slots.map Prod.fst).Nodup)
    (hvalues : ∀ s ∈ slots, s.2.toValue.Distinct) : (Value.table (entriesOf slots)).Distinct := by
  refine .table (by rwa [keys_entriesOf]) ?_
  rw [entriesOf_eq_map, List.forall_mem_map]
  exact hvalues

/-- The value of a node, `toValue`, has the node's keys. -/
theorem Node.Distinct.toValue {node : Node} (h : node.Distinct) : node.toValue.Distinct := by
  induction h with
  | value hv => rwa [Node.toValue]
  | table hkeys _ ih =>
      rw [Node.toValue]
      exact distinct_entriesOf hkeys ih
  | tables hkeys _ ih =>
      rw [Node.toValue, tablesOf_eq_map]
      refine .array fun v hv => ?_
      obtain ⟨slots, hslots, rfl⟩ : ∃ slots ∈ _ :: _, .table (entriesOf slots) = v :=
        List.mem_map.mp (List.mem_reverse.mp hv)
      exact distinct_entriesOf (hkeys slots hslots) (ih slots hslots)

theorem Slots.Distinct.toEntries {slots : Slots} (h : slots.Distinct) :
    (Value.table (entriesOf slots)).Distinct :=
  distinct_entriesOf h.keys fun s hs => (h.nodes s hs).toValue

theorem distinct_inlineTable? {assignments : List Assignment} (hvalues : ∀ a ∈ assignments, a.2.Distinct)
    {entries : List (String × Value)} (h : inlineTable? assignments = some entries) :
    (Value.table entries).Distinct := by
  obtain ⟨slots, hslots, rfl⟩ := Option.map_eq_some_iff.mp h
  exact (Slots.Distinct.assignAll? hvalues .nil hslots).toEntries

/-! ## Values that are read -/

/-- Each item of `itemsUntil?` has been read by the reader of items. -/
theorem item_of_itemsUntil? {α : Type} {item? : Reader α} {close : Char} {fuel : Nat} {cs rest : List Char}
    {items : List α} (h : itemsUntil? item? close fuel cs = some (items, rest)) :
    ∀ a ∈ items, ∃ cs rest, item? cs = some (a, rest) := by
  -- by induction on the fuel, of which each item takes one
  induction fuel generalizing cs items rest with
  | zero => cases h
  | succ fuel ih =>
      rw [itemsUntil?] at h
      obtain ⟨_ | ⟨c, cs⟩, _, h⟩ := Option.bind_eq_some_iff.mp h
      · cases h
      · dsimp only at h
        split at h
        · cases h
          exact List.forall_mem_nil _
        · obtain ⟨⟨a, after⟩, hitem, h⟩ := Option.bind_eq_some_iff.mp h
          obtain ⟨_, _, h⟩ := Option.bind_eq_some_iff.mp h
          split at h
          · obtain ⟨⟨items', rest'⟩, hitems, h⟩ := Option.bind_eq_some_iff.mp h
            cases h
            exact List.forall_mem_cons.mpr ⟨⟨_, _, hitem⟩, ih hitems⟩
          · split at h
            · cases h
              exact List.forall_mem_singleton.mpr ⟨_, _, hitem⟩
            · cases h
          · cases h

/-- **`ReadsDistinct`**: a reader whose values give each key once. -/
def ReadsDistinct (read? : Reader Value) : Prop :=
  ∀ cs v rest, read? cs = some (v, rest) → v.Distinct

theorem ReadsDistinct.assignment? {read? : Reader Value} (h : ReadsDistinct read?) {cs rest : List Char}
    {a : Assignment} (hassign : assignment? read? cs = some (a, rest)) : a.2.Distinct := by
  obtain ⟨⟨keys, after⟩, _, hassign⟩ := Option.bind_eq_some_iff.mp hassign
  dsimp only at hassign
  split at hassign
  · obtain ⟨⟨v, _⟩, hv, hassign⟩ := Option.bind_eq_some_iff.mp hassign
    cases hassign
    exact h _ _ _ hv
  · cases hassign

theorem distinct_scalar? {cs : List Char} {v : Value} (h : Scalar.scalar? cs = some v) : v.Distinct := by
  unfold Scalar.scalar? at h
  split at h
  · cases h; exact .boolean _
  split at h
  · cases h; exact .boolean _
  split at h
  · cases h; exact .integer _
  split at h
  · cases h; exact .float _
  split at h
  · cases h; exact .datetime
  · cases h

/-- **What `valueWithin?` reads a value from:** a string, a scalar, the items of an array or the assignments
    of an inline table, these nested one less deep. -/
theorem valueWithin?_cases {depth : Nat} {cs rest : List Char} {v : Value}
    (h : valueWithin? depth cs = some (v, rest)) :
    (∃ text, v = .string text) ∨ (∃ run, Scalar.scalar? run = some v) ∨
    (∃ inner items after fuel, itemsUntil? (valueWithin? inner) ']' fuel after = some (items, rest) ∧
      inner < depth ∧ v = .array items) ∨
    ∃ inner assignments after fuel entries, itemsUntil? (assignment? (valueWithin? inner)) '\x7d' fuel after
      = some (assignments, rest) ∧ inner < depth ∧ inlineTable? assignments = some entries ∧ v = .table entries := by
  unfold valueWithin? at h
  -- by the first character; an array or inline table that is nested too deep is refused
  split at h
  · obtain ⟨_, _, heq⟩ := Option.map_eq_some_iff.mp h
    cases heq
    exact .inl ⟨_, rfl⟩
  · obtain ⟨_, _, heq⟩ := Option.map_eq_some_iff.mp h
    cases heq
    exact .inl ⟨_, rfl⟩
  · cases h
  · cases h
  · obtain ⟨⟨items, _⟩, hitems, heq⟩ := Option.bind_eq_some_iff.mp h
    cases heq
    exact .inr (.inr (.inl ⟨_, _, _, _, hitems, Nat.lt_succ_self _, rfl⟩))
  · obtain ⟨⟨assignments, _⟩, hassignments, h⟩ := Option.bind_eq_some_iff.mp h
    obtain ⟨entries, hentries, heq⟩ := Option.bind_eq_some_iff.mp h
    cases heq
    exact .inr (.inr (.inr ⟨_, _, _, _, _, hassignments, Nat.lt_succ_self _, hentries, rfl⟩))
  · obtain ⟨v, hv, heq⟩ := Option.map_eq_some_iff.mp h
    cases heq
    exact .inr (.inl ⟨_, hv⟩)

/-- **Values that are read** by `valueWithin?` give each key once, however deep they are nested. -/
theorem readsDistinct_valueWithin? (depth : Nat) : ReadsDistinct (valueWithin? depth) := by
  induction depth using Nat.strongRecOn with
  | _ depth ih =>
      intro cs v rest h
      obtain ⟨text, rfl⟩ | ⟨run, hv⟩ | ⟨inner, items, after, fuel, hitems, hlt, rfl⟩ |
        ⟨inner, assignments, after, fuel, entries, hassignments, hlt, hentries, rfl⟩ := valueWithin?_cases h
      · exact .string _
      · exact distinct_scalar? hv
      · refine .array fun v hv => ?_
        obtain ⟨_, _, hv⟩ := item_of_itemsUntil? hitems v hv
        exact ih inner hlt _ _ _ hv
      · refine distinct_inlineTable? (fun a ha => ?_) hentries
        obtain ⟨_, _, ha⟩ := item_of_itemsUntil? hassignments a ha
        exact (ih inner hlt).assignment? ha

/-! ## Documents -/

/-- A statement whose value, if it is an `.assign`, gives each key once. -/
def Statement.Distinct : Statement → Prop
  | .assign _ v => v.Distinct
  | .header _ => True
  | .arrayHeader _ => True

theorem distinct_statement? {cs rest : List Char} {s : Statement} (h : statement? cs = some (s, rest)) :
    s.Distinct := by
  unfold statement? at h
  split at h
  · obtain ⟨_, _, h⟩ := Option.bind_eq_some_iff.mp h
    dsimp only at h
    split at h
    · cases h
      trivial
    · cases h
  · obtain ⟨_, _, h⟩ := Option.bind_eq_some_iff.mp h
    dsimp only at h
    split at h
    · cases h
      trivial
    · cases h
  · obtain ⟨⟨a, _⟩, ha, heq⟩ := Option.map_eq_some_iff.mp h
    cases heq
    exact (readsDistinct_valueWithin? maxDepth).assignment? ha

theorem distinct_statementsWithin? {fuel : Nat} {cs : List Char} {statements : List Statement}
    (h : statementsWithin? fuel cs = some statements) : ∀ s ∈ statements, s.Distinct := by
  induction fuel generalizing cs statements with
  | zero => cases h
  | succ fuel ih =>
      rw [statementsWithin?] at h
      obtain ⟨cs, _, h⟩ := Option.bind_eq_some_iff.mp h
      dsimp only at h
      split at h
      · cases h
        exact List.forall_mem_nil _
      · obtain ⟨⟨s, after⟩, hs, h⟩ := Option.bind_eq_some_iff.mp h
        obtain ⟨_, _, h⟩ := Option.bind_eq_some_iff.mp h
        obtain ⟨statements, hstatements, heq⟩ := Option.bind_eq_some_iff.mp h
        cases heq
        exact List.forall_mem_cons.mpr ⟨distinct_statement? hs, ih hstatements⟩

theorem distinct_statements? {cs : List Char} {statements : List Statement}
    (h : statements? cs = some statements) : ∀ s ∈ statements, s.Distinct := by
  unfold statements? at h
  split at h
  · exact distinct_statementsWithin? h
  · exact distinct_statementsWithin? h

/-- Grouping keeps the values: those of `group` are `Distinct` if those of the statements are. -/
theorem distinct_group {statements : List Statement} (h : ∀ s ∈ statements, s.Distinct) :
    (∀ a ∈ (group statements).1, a.2.Distinct) ∧ ∀ g ∈ (group statements).2, ∀ a ∈ g.2, a.2.Distinct := by
  induction statements with
  | nil => exact ⟨List.forall_mem_nil _, List.forall_mem_nil _⟩
  | cons s statements ih =>
      obtain ⟨hs, hrest⟩ := List.forall_mem_cons.mp h
      obtain ⟨htop, hgroups⟩ := ih hrest
      cases s with
      | assign keys v => exact ⟨List.forall_mem_cons.mpr ⟨hs, htop⟩, hgroups⟩
      | header keys => exact ⟨List.forall_mem_nil _, List.forall_mem_cons.mpr ⟨htop, hgroups⟩⟩
      | arrayHeader keys => exact ⟨List.forall_mem_nil _, List.forall_mem_cons.mpr ⟨htop, hgroups⟩⟩

theorem Slots.Distinct.addGroups? {groups : List (Header × List Assignment)}
    (hvalues : ∀ g ∈ groups, ∀ a ∈ g.2, a.2.Distinct) {slots slots' : Slots} (h : slots.Distinct)
    (hadd : groups.foldlM Slots.addGroup? slots = some slots') : slots'.Distinct := by
  induction groups generalizing slots with
  | nil => cases hadd; exact h
  | cons g groups ih =>
      obtain ⟨hg, hvalues⟩ := List.forall_mem_cons.mp hvalues
      obtain ⟨inner, hinner, hrest⟩ := Option.bind_eq_some_iff.mp hadd
      exact ih hvalues (Slots.Distinct.addGroup? hg h hinner) hrest

/-- **No key is given twice** in a document that `ofText?` reads, at any depth. -/
theorem ofText?_distinct {text : String} {entries : List (String × Value)} (h : ofText? text = some entries) :
    (Value.table entries).Distinct := by
  obtain ⟨statements, hstatements, h⟩ := Option.bind_eq_some_iff.mp h
  obtain ⟨hassignments, hgroups⟩ := distinct_group (distinct_statements? hstatements)
  obtain ⟨slots, hslots, h⟩ := Option.bind_eq_some_iff.mp h
  obtain ⟨slots', hslots', heq⟩ := Option.bind_eq_some_iff.mp h
  cases heq
  have hdistinct := Slots.Distinct.assignAll? hassignments .nil hslots
  exact (Slots.Distinct.addGroups? hgroups hdistinct hslots').toEntries

end TestHarness.Toml
