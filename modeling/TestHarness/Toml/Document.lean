import TestHarness.Toml.Statement

/-!
# TOML documents

The statements of a document are grouped into the assignments before the first header and one group
per header.  Each group fills one table, which then takes its place in the document.
-/

namespace TestHarness.Toml

/-- Which table the assignments after a header fill. -/
inductive Header where
  /-- The table of that name. -/
  | table (keys : List String)
  /-- The next table of the array of that name. -/
  | element (keys : List String)
deriving Repr

/-- An assignment: a dotted key and its value. -/
abbrev Assignment := List String × Value

/-- Groups statements: the assignments before the first header, and each `Header` with its own. -/
def group : List Statement → List Assignment × List (Header × List Assignment)
  | [] => ([], [])
  | .assign keys v :: rest => ((keys, v) :: (group rest).1, (group rest).2)
  | .header keys :: rest => ([], (.table keys, (group rest).1) :: (group rest).2)
  | .arrayHeader keys :: rest => ([], (.element keys, (group rest).1) :: (group rest).2)

/-- Makes assignments in order, each with `assign?`. -/
def Slots.assignAll? (slots : Slots) (assignments : List Assignment) : Option Slots :=
  assignments.foldlM (fun slots (keys, v) => slots.assign? keys v) slots

/-- Adds one header's group to the document: its table by `alter?`, filled by `assignAll?`. -/
def Slots.addGroup? (slots : Slots) : Header × List Assignment → Option Slots
  | (.table keys, assignments) =>
    slots.alter? (fun
      | none => (Slots.assignAll? [] assignments).map (.table .header)
      | some (.table .passed inner) => (Slots.assignAll? inner assignments).map (.table .header)
      | some _ => none) keys
  | (.element keys, assignments) =>
    slots.alter? (fun
      | none => (Slots.assignAll? [] assignments).map (.tables · [])
      | some (.tables last earlier) =>
        (Slots.assignAll? [] assignments).map (.tables · (last :: earlier))
      | some _ => none) keys

/-- The entries of a document with the given statements, put together by `group`. -/
def ofStatements? (statements : List Statement) : Option (List (String × Value)) := do
  let (assignments, groups) := group statements
  let slots ← Slots.assignAll? [] assignments
  return entriesOf (← groups.foldlM Slots.addGroup? slots)

/-- The entries of a document; `none` if the text is not TOML. -/
def ofText? (text : String) : Option (List (String × Value)) :=
  (statements? text.toList).bind ofStatements?

end TestHarness.Toml
