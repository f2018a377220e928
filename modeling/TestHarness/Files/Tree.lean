import TestHarness.Files.Stream
import TestHarness.Output
import TestHarness.Path

/-!
# File trees

A file system without symbolic links: every entry has one *location*, the list of names that lead to
it from the root.  A path is resolved by walking its names from the root or from a working
directory; `..` leads to the directory above, and the root is above itself.

## Contents
* `Location`, `Entry`, `FileTree` and its look-up
* `FileTree.resolve`: from a path to the location it denotes
* reading: `exists`, `read?`, `view`
* writing: `makeDirectory`, `write`, `remove`
-/

namespace TestHarness

/-- The names that lead from the root to an entry. -/
abbrev Location := List Bytes

/-- What stands at a location. -/
inductive Entry where
  | directory
  | file (data : Bytes)
  /-- A file that can be executed. -/
  | program
  /-- A device that is empty when read and keeps nothing that is written. -/
  | nullDevice
  /-- A device that gives NULs without end and keeps nothing that is written. -/
  | zeroDevice
deriving DecidableEq, Repr, Inhabited

/-- The stream that an entry opens as. A directory opens, and reading it fails at once, `failAt`
    0. -/
def Entry.stream : Entry → Stream
  | .directory => { data := [], failAt := some 0 }
  | .file data => { data }
  | .program => { data := [0x7F, 0x45, 0x4C, 0x46] }
  | .nullDevice => { data := [] }
  | .zeroDevice => { data := [], failAt := some 0 }

/-- Why a path leads nowhere or an entry cannot be used. -/
inductive FileFault where
  /-- A name on the way does not exist. -/
  | missing
  /-- A name on the way, or the last one, should be a directory. -/
  | notDirectory
  /-- A directory stands where a file is needed. -/
  | isDirectory
  /-- The entry may not be used in this way. -/
  | denied
  /-- The path contains a NUL. -/
  | nul
deriving DecidableEq, Repr

/-- The entries below the root, each at its `Location`. -/
structure FileTree where
  entries : List (Location × Entry) := []
deriving Repr, Inhabited

namespace FileTree

/-- The entry at a location. The root, `[]`, is a directory. -/
def entry? (t : FileTree) (loc : Location) : Option Entry :=
  if loc = [] then some .directory else t.entries.lookup loc

/-- Whether a `directory` stands at a location. -/
def isDirectory (t : FileTree) (loc : Location) : Bool := t.entry? loc = some .directory

/-- Sets the entry at `loc`, in place of an earlier one. -/
def put (t : FileTree) (loc : Location) (e : Entry) : FileTree :=
  ⟨(loc, e) :: t.entries.filter (·.1 ≠ loc)⟩

/-! ## Resolving paths -/

/-- The name of the current directory, `.`. -/
def here : Bytes := [Path.dot]

/-- The name of the directory above, `..`. -/
def above : Bytes := [Path.dot, Path.dot]

/-- Follows one name from a location, which has to be a directory: `here` stays, `above` goes back,
    another name leads on. -/
def follow (t : FileTree) (loc : Location) (name : Bytes) : Except FileFault Location :=
  if t.isDirectory loc then
    if name = [] ∨ name = here then .ok loc
    else if name = above then .ok loc.dropLast
    else if (t.entry? (loc ++ [name])).isSome then .ok (loc ++ [name])
    else .error .missing
  else .error .notDirectory

/-- Where the names of a path are followed from: the root, or `cwd` for a relative path. -/
def origin (cwd : Location) (p : Path) : Location := if p.isAbsolute then [] else cwd

/-- The location that a path denotes. It must have octets and no NUL, and `follow` must lead along
    its names. -/
def resolve (t : FileTree) (cwd : Location) (p : Path) : Except FileFault Location :=
  if p.bytes.contains 0 then .error .nul
  else if p.bytes = [] then .error .missing
  else p.names.foldlM t.follow (origin cwd p)

/-! ## Reading -/

/-- Whether a path denotes an entry: `resolve` gives one. -/
def pathExists (t : FileTree) (cwd : Location) (p : Path) : Bool := (t.resolve cwd p).isOk

/-- The files of the tree as they open from a working directory `cwd`. -/
def view (t : FileTree) (cwd : Location) : FileView := fun p =>
  (t.resolve cwd p).toOption.bind fun location => (t.entry? location).map Entry.stream

/-! ## Writing -/

/-- Makes the directories that names lead through, and gives the last one's location. -/
def makeAlong (t : FileTree) (loc : Location) : List Bytes → Except FileFault (FileTree × Location)
  | [] => .ok (t, loc)
  | name :: names =>
    if t.isDirectory loc then
      if name = [] ∨ name = here then t.makeAlong loc names
      else if name = above then t.makeAlong loc.dropLast names
      else match t.entry? (loc ++ [name]) with
        | some _ => t.makeAlong (loc ++ [name]) names
        | none => (t.put (loc ++ [name]) .directory).makeAlong (loc ++ [name]) names
    else .error .notDirectory

/-- Makes a directory and every directory above it that is missing. -/
def makeDirectory (t : FileTree) (cwd : Location) (p : Path) : FileTree :=
  match t.makeAlong (origin cwd p) p.names with
  | .ok (t, _) => t
  | .error _ => t

/-- The location at which a file of that path is or would be written. -/
def target (t : FileTree) (cwd : Location) (p : Path) : Except FileFault Location := do
  if p.bytes.contains 0 then throw .nul
  match p.names.getLast? with
  | none => throw .missing
  | some name =>
    let directory ← p.names.dropLast.foldlM t.follow (origin cwd p)
    if !t.isDirectory directory then throw .notDirectory
    if name = [] ∨ name = here ∨ name = above then throw .isDirectory
    match t.entry? (directory ++ [name]) with
    | some .directory => throw .isDirectory
    | some .program => throw .denied
    | _ => return directory ++ [name]

/-- Changes the octets of a file; a missing file is made first, and a device keeps none. -/
def modifyAt (t : FileTree) (location : Location) (change : Bytes → Bytes) : FileTree :=
  match t.entry? location with
  | some .nullDevice => t
  | some .zeroDevice => t
  | some (.file data) => t.put location (.file (change data))
  | _ => t.put location (.file (change []))

/-- Writes a file, and makes every directory above it that is missing. -/
def write (t : FileTree) (cwd : Location) (p : Path) (data : Bytes) : FileTree :=
  let made := match t.makeAlong (origin cwd p) p.names.dropLast with
    | .ok (t, _) => t
    | .error _ => t
  match made.target cwd p with
  | .ok location => made.modifyAt location fun _ => data
  | .error _ => made

/-- Removes a file. -/
def remove (t : FileTree) (cwd : Location) (p : Path) : FileTree :=
  match t.resolve cwd p with
  | .ok location =>
    if t.isDirectory location then t else ⟨t.entries.filter (·.1 ≠ location)⟩
  | .error _ => t

end FileTree

end TestHarness
