import TestHarness.Options.Basic
import TestHarness.Text.Quoted
import TestHarness.Toml.Document

/-!
# Options from TOML

A section of the options is a list of fields.  A table gives fields by their names and is read in
the order of its keys; an array gives them by their positions.  Either way each given field is read
into the defaults, and the first value that does not fit ends the reading.

## Contents
* `Found`, `FieldFault` and their texts
* `Field`, `readTable`, `readArray`, `readSection`
* the fields of the three sections and of the options
* `ConfigFault`, `Options.ofEntries`, `Options.ofToml`
-/

namespace TestHarness

/-! ## Faults of a field -/

/-- What stands where a value of another type is expected. -/
inductive Found where
  | integer (n : Int)
  | float (text : String)
  | boolean (b : Bool)
  | string (text : String)
  | sequence
  | map
deriving DecidableEq, Repr

namespace Found

/-- Whether an integer is a word of 64 bits, with or without a sign: from `-2^63` up to
    `2^64 - 1`. -/
def isWord (n : Int) : Bool := -Int.pow 2 63 ≤ n && n < Int.pow 2 64

/-- The description of what was found. An integer that is not `isWord` and only a double word holds
    says so. -/
def description : Found → String
  | integer n =>
    "integer `" ++ toString n ++ "`" ++
      (if isWord n then "" else if n < Int.pow 2 127 then " as i128" else " as u128")
  | float text => "floating point `" ++ text ++ "`"
  | boolean b => "boolean `" ++ toString b ++ "`"
  | string text => "string " ++ Quoted.text text
  | sequence => "sequence"
  | map => "map"

end Found

/-- Why the fields of a section cannot be read. -/
inductive FieldFault where
  /-- The section has no such field. -/
  | unknown (name : String) (fields : List String)
  /-- The value is of another type. -/
  | wrongType (found : Found) (expected : String)
  /-- The value is of the right type and out of its range. -/
  | wrongValue (found : Found) (expected : String)
  /-- The number is too large to be a number. -/
  | overflow
deriving DecidableEq, Repr

namespace FieldFault

/-- The names to choose from. -/
def choice (fields : List String) : String :=
  match fields.map fun name => "`" ++ name ++ "`" with
  | [] => "no field"
  | [a] => a
  | [a, b] => a ++ " or " ++ b
  | names => "one of " ++ ", ".intercalate names

/-- The text of the fault, such as `unknown field` or `invalid type`. -/
def message : FieldFault → String
  | unknown name fields => "unknown field `" ++ name ++ "`, expected " ++ choice fields
  | wrongType found expected =>
    "invalid type: " ++ found.description ++ ", expected " ++ expected
  | wrongValue found expected =>
    "invalid value: " ++ found.description ++ ", expected " ++ expected
  | overflow => "syntax"

end FieldFault

/-! ## Reading values -/

/-- Reads a value, or says by a `FieldFault` why it does not fit. -/
abbrev ReadValue (α : Type) := Toml.Value → Except FieldFault α

namespace ReadValue

/-- Whether an integer can be represented at all: from `-2^127` up to `2^128 - 1`. -/
def isRepresentable (n : Int) : Bool := -Int.pow 2 127 ≤ n && n < Int.pow 2 128

/-- The fault of a value of another type than `expected`. -/
def mismatch (expected : String) : Toml.Value → FieldFault
  | .string text => .wrongType (.string text) expected
  | .integer n => if isRepresentable n then .wrongType (.integer n) expected else .overflow
  | .float x =>
    match x.text? with
    | some text => .wrongType (.float text) expected
    | none => .overflow
  | .boolean b => .wrongType (.boolean b) expected
  | .datetime => .wrongType .map expected
  | .array _ => .wrongType .sequence expected
  | .table _ => .wrongType .map expected

/-- A truth value. -/
def boolean : ReadValue Bool
  | .boolean b => .ok b
  | v => .error (mismatch "a boolean" v)

/-- An integer from 0 to `max`. -/
def unsigned (expected : String) (max : Nat) : ReadValue Nat
  | .integer n =>
    if 0 ≤ n ∧ n ≤ max then .ok n.toNat
    else if Found.isWord n then .error (.wrongValue (.integer n) expected)
    else .error (mismatch expected (.integer n))
  | v => .error (mismatch expected v)

/-- A word of 64 bits, as `unsigned` reads it. -/
def word64 (expected : String) : ReadValue UInt64 := fun v =>
  (unsigned expected (Nat.pow 2 64 - 1) v).map UInt64.ofNat

/-- A word of 32 bits, as `unsigned` reads it. -/
def word32 (expected : String) : ReadValue UInt32 := fun v =>
  (unsigned expected (Nat.pow 2 32 - 1) v).map UInt32.ofNat

/-- A path, from a `.string`. -/
def path : ReadValue Path
  | .string text => .ok (.ofString text)
  | v => .error (mismatch "path string" v)

end ReadValue

/-! ## Sections -/

/-- A field of a section: its `name`, and how its value is read into the section. -/
structure Field (σ : Type) where
  name : String
  read : Toml.Value → σ → Except FieldFault σ

/-- A field whose value, by `reader`, replaces a part of the section. -/
def Field.ofReader {σ α : Type} (name : String) (reader : ReadValue α) (set : α → σ → σ) :
    Field σ :=
  { name, read := fun v s => (reader v).map (set · s) }

section

variable {σ : Type}

/-- Reads one entry of a table with the field of its name; a name without a field is `unknown`. -/
def readEntry (fields : List (Field σ)) (s : σ) (entry : String × Toml.Value) :
    Except FieldFault σ :=
  match fields.find? (·.name == entry.1) with
  | some field => field.read entry.2 s
  | none => .error (.unknown entry.1 (fields.map Field.name))

/-- Entries in ascending order of their keys. -/
def sortEntries (entries : List (String × Toml.Value)) : List (String × Toml.Value) :=
  entries.mergeSort fun a b => decide (a.1 ≤ b.1)

/-- Reads the entries of a table, in the order of their keys, into `s`. -/
def readTable (fields : List (Field σ)) (s : σ) (entries : List (String × Toml.Value)) :
    Except FieldFault σ :=
  (sortEntries entries).foldlM (readEntry fields) s

/-- Reads the items of an array into the fields at their positions.  Further items are ignored. -/
def readArray : List (Field σ) → σ → List Toml.Value → Except FieldFault σ
  | field :: fields, s, v :: vs => (field.read v s).bind fun s => readArray fields s vs
  | _, s, _ => .ok s

/-- The key under which a date or time appears where a table is expected. -/
def datetimeKey : String := "$__toml_private_datetime"

/-- Reads a section with `readTable` or `readArray`; a date or time reads as a table with
    `datetimeKey`. -/
def readSection (title : String) (fields : List (Field σ)) (default : σ) : ReadValue σ
  | .table entries => readTable fields default entries
  | .array items => readArray fields default items
  | .datetime => readTable fields default [(datetimeKey, .datetime)]
  | v => .error (ReadValue.mismatch ("struct " ++ title) v)

end

/-! ## The options -/

namespace RunnerOptions

/-- The fields of `[runner]`, in the order of their declaration. -/
def fields : List (Field RunnerOptions) :=
  [.ofReader "timeout_secs" (.word64 "u64") fun n s => { s with timeoutSecs := some n },
   .ofReader "kill_grace_ms" (.word64 "u64") fun n s => { s with killGraceMs := n },
   .ofReader "poll_interval_ms" (.word64 "u64") fun n s => { s with pollIntervalMs := n }]

/-- Reads the section `[runner]`. -/
def read : ReadValue RunnerOptions := readSection "RunnerOptions" fields {}

end RunnerOptions

namespace OutputOptions

/-- The fields of `[output]`. -/
def fields : List (Field OutputOptions) :=
  [.ofReader "header_width" (.word64 "usize") fun n s => { s with headerWidth := n }]

/-- Reads the section `[output]`. -/
def read : ReadValue OutputOptions := readSection "OutputOptions" fields {}

end OutputOptions

namespace TestOptions

/-- The fields of `[tests]`, in the order of their declaration. -/
def fields : List (Field TestOptions) :=
  [.ofReader "processors" (.word32 "u32") fun n s => { s with processors := n },
   .ofReader "output_dir" .path fun p s => { s with outputDir := some p }]

/-- Reads the section `[tests]`. -/
def read : ReadValue TestOptions := readSection "TestOptions" fields {}

end TestOptions

namespace Options

/-- The fields of the options: `verbose` and the three sections. -/
def fields : List (Field Options) :=
  [.ofReader "verbose" .boolean fun b o => { o with verbose := b },
   .ofReader "runner" RunnerOptions.read fun s o => { o with runner := s },
   .ofReader "output" OutputOptions.read fun s o => { o with output := s },
   .ofReader "tests" TestOptions.read fun s o => { o with tests := s }]

end Options

/-- Why a text gives no options. -/
inductive ConfigFault where
  /-- The text is not TOML. -/
  | illFormed
  /-- A field cannot be read. -/
  | field (fault : FieldFault)
  /-- A setting is out of range. -/
  | setting (s : InvalidSetting)
deriving DecidableEq, Repr

namespace ConfigFault

/-- The text of the fault, without the `detail?` that the reader of the text has to say. -/
def message : ConfigFault → String
  | illFormed => "Failed to parse harness options"
  | field _ => "Failed to parse harness options"
  | setting s => s.message

/-- What the reader of the text has to say. -/
def detail? : ConfigFault → Option String
  | illFormed => some "syntax"
  | field fault => some fault.message
  | setting _ => none

end ConfigFault

namespace Options

/-- **The options that the entries of a document give**, read by `readTable` and then validated. -/
def ofEntries (entries : List (String × Toml.Value)) : Except ConfigFault Options :=
  match readTable fields {} entries with
  | .error fault => .error (.field fault)
  | .ok o =>
    match o.validate with
    | .error s => .error (.setting s)
    | .ok () => .ok o

/-- **The options that a TOML text gives**, by `ofEntries` of its entries. -/
def ofToml (text : String) : Except ConfigFault Options :=
  match Toml.ofText? text with
  | none => .error .illFormed
  | some entries => ofEntries entries

end Options

end TestHarness
