import TestHarness.Toml.Value

/-!
# TOML tables under construction

A table comes into being in one of three ways: by a header of its own, on the way of a longer
header, or on the way of a dotted key.  How it did decides who may add to it later:

* a header opens a table that was only on the way of a longer header, and no other;
* a dotted key adds to tables that dotted keys have made;
* a value, inline tables included, is complete at once.

## Contents
* `Origin`, `Node`, `Slots`
* `Slots.assign?`: a dotted key and its value
* `Slots.alter?`: the slot that a header names
* `Slots.toEntries`, `inlineTable?`
-/

namespace TestHarness.Toml

/-- How a table came into being. -/
inductive Origin where
  /-- By its own header. -/
  | header
  /-- On the way of a longer header. -/
  | passed
  /-- On the way of a dotted key. -/
  | dotted
deriving DecidableEq, Repr

/-- What stands under a key. -/
inductive Node where
  /-- A complete value. -/
  | value (v : Value)
  /-- A table that may still grow. -/
  | table (origin : Origin) (slots : List (String × Node))
  /-- An array of tables, the last one first. -/
  | tables (last : List (String × Node)) (earlier : List (List (String × Node)))

/-- The keys of a table under construction, in the order of their first appearance. -/
abbrev Slots := List (String × Node)

namespace Slots

/-- What stands under `key`. -/
def get? (slots : Slots) (key : String) : Option Node := slots.lookup key

/-- Puts a node under `key`, in the place of an earlier one. -/
def put (key : String) (node : Node) : Slots → Slots
  | [] => [(key, node)]
  | (k, n) :: rest => if k = key then (key, node) :: rest else (k, n) :: put key node rest

/-- Adds a value under a dotted key.  `mayAdd` tells whether the last key may be added to the present
    table: to the table whose statements are being read, and to those that dotted keys have made. -/
def assignFrom? (v : Value) (mayAdd : Bool) (slots : Slots) : List String → Option Slots
  | [] => none
  | [key] => if mayAdd && (slots.get? key).isNone then some (slots.put key (.value v)) else none
  | key :: keys =>
    match slots.get? key with
    | none => (assignFrom? v true [] keys).map fun inner => slots.put key (.table .dotted inner)
    | some (.table .header _) => none
    | some (.table origin inner) =>
      (assignFrom? v (origin = .dotted) inner keys).map fun inner =>
        slots.put key (.table origin inner)
    | some (.tables last earlier) =>
      (assignFrom? v false last keys).map fun last => slots.put key (.tables last earlier)
    | some (.value _) => none

/-- Adds a value under a dotted key to the table whose statements are being read, with
    `assignFrom?`. -/
def assign? (slots : Slots) (keys : List String) (v : Value) : Option Slots :=
  slots.assignFrom? v true keys

/-- Changes with `change` what stands under the last key of a header. Tables on the way are made
    where they are missing, and the way leads through the last table of an array. -/
def alter? (change : Option Node → Option Node) (slots : Slots) : List String → Option Slots
  | [] => none
  | [key] => (change (slots.get? key)).map fun node => slots.put key node
  | key :: keys =>
    match slots.get? key with
    | none => (alter? change [] keys).map fun inner => slots.put key (.table .passed inner)
    | some (.table origin inner) =>
      (alter? change inner keys).map fun inner => slots.put key (.table origin inner)
    | some (.tables last earlier) =>
      (alter? change last keys).map fun last => slots.put key (.tables last earlier)
    | some (.value _) => none

end Slots

/-! ## Finished tables -/

mutual

/-- The value of a node, a table by its `entriesOf`. -/
def Node.toValue : Node → Value
  | .value v => v
  | .table _ slots => .table (entriesOf slots)
  | .tables last earlier => .array ((.table (entriesOf last) :: tablesOf earlier).reverse)

/-- The entries of slots, each with the `toValue` of its node. -/
def entriesOf : List (String × Node) → List (String × Value)
  | [] => []
  | (key, node) :: rest => (key, node.toValue) :: entriesOf rest

/-- The values of tables, by their `entriesOf`. -/
def tablesOf : List (List (String × Node)) → List Value
  | [] => []
  | slots :: rest => .table (entriesOf slots) :: tablesOf rest

end

/-- The entries of an inline table with the given assignments, made by `assign?`. -/
def inlineTable? (assignments : List (List String × Value)) : Option (List (String × Value)) :=
  (assignments.foldlM (fun (slots : Slots) (keys, v) => slots.assign? keys v) []).map entriesOf

end TestHarness.Toml
