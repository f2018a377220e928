import TestHarness.Files.Tree
import TestHarness.Options.Decode

/-!
# Finding options

Options are read from `config.toml`.  The file stands in the directory that the environment names,
or else in a `.testrun` directory at or above the start of the search.  The search goes up by the
written form of paths and ends at the root of a repository.  Without a file the defaults hold; a
file that is found is never passed over.

## Contents
* `FileSystem`
* `Options.load`, `Options.configFileFrom?`, `Options.discoverFrom`
* `Options.discover`, which starts in the working directory
-/

namespace TestHarness

/-- A file system at one moment: which paths exist, `pathExists`, and how they open, `files`. -/
structure FileSystem where
  pathExists : Path → Bool
  files : FileView

/-- The file system of a tree, seen from a working directory `cwd`. -/
def FileTree.fileSystem (t : FileTree) (cwd : Location) : FileSystem :=
  { pathExists := t.pathExists cwd, files := t.view cwd }

/-! ## Errors -/

/-- Why options cannot be had. -/
inductive ConfigError where
  /-- The file cannot be read as text. -/
  | unreadable (path : Path)
  /-- The text gives no options. -/
  | faulty (path : Path) (fault : ConfigFault)
deriving DecidableEq, Repr

namespace ConfigError

/-- The text of the error. -/
def message : ConfigError → String
  | unreadable path => "Failed to read config file: " ++ path.display
  | faulty path fault => "Failed to load config file: " ++ path.display ++ ": " ++ fault.message

end ConfigError

/-- Why options cannot be had for the working directory. -/
inductive DiscoveryError where
  | noWorkingDirectory
  | config (e : ConfigError)
deriving DecidableEq, Repr

/-- The text of the error. -/
def DiscoveryError.message : DiscoveryError → String
  | noWorkingDirectory => "Failed to get current directory"
  | config e => e.message

namespace Options

/-! ## Reading a file -/

/-- The options in the file at `path`. -/
def load (files : FileView) (path : Path) : Except ConfigError Options :=
  match (files path).bind Stream.readAll? with
  | none => .error (.unreadable path)
  | some bytes =>
    match Utf8.decode? bytes with
    | none => .error (.unreadable path)
    | some text =>
      match ofToml text with
      | .error fault => .error (.faulty path fault)
      | .ok o => .ok o

/-! ## Searching -/

/-- The name of the configuration file, `config.toml`. -/
def configFile : Path := .ofString "config.toml"

/-- The name of the directory that holds it, `.testrun`. -/
def configDirectory : Path := .ofString ".testrun"

/-- The environment variable that names a directory with a configuration file. -/
def homeVariable : String := "TESTRUN_HOME"

/-- The configuration file of a directory, `.testrun/config.toml` in it. -/
def configFileIn (dir : Path) : Path := (dir.join configDirectory).join configFile

/-- The entries that mark the root of a repository: `.git`, `.hg` and `.svn`. -/
def repositoryMarkers : List Path := [.ofString ".git", .ofString ".hg", .ofString ".svn"]

/-- Whether a directory is the root of a repository, by any of `repositoryMarkers`. -/
def isRepositoryRoot (pathExists : Path → Bool) (dir : Path) : Bool :=
  repositoryMarkers.any fun marker => pathExists (dir.join marker)

/-- **The search.** The first configuration file at or above `dir`; a repository's root is the last
    directory that is looked at. -/
def configFileFrom? (pathExists : Path → Bool) (dir : Path) : Option Path :=
  if pathExists (configFileIn dir) then some (configFileIn dir)
  else if isRepositoryRoot pathExists dir then none
  else match _h : dir.parent with
    | none => none
    | some up => configFileFrom? pathExists up
termination_by dir.bytes.length
decreasing_by exact Path.parent_length _h

/-- The configuration file that is used: the one of the home directory if a home is set, and none if
    it has none; else the one of `configFileFrom?`. -/
def chosenFile? (pathExists : Path → Bool) (home : Option Path) (start : Path) : Option Path :=
  match home with
  | some home => if pathExists (home.join configFile) then some (home.join configFile) else none
  | none => configFileFrom? pathExists start

/-- The options of the file that is used, by `load`, or the defaults if there is none. -/
def discoverFrom (fs : FileSystem) (home : Option Path) (start : Path) :
    Except ConfigError Options :=
  match chosenFile? fs.pathExists home start with
  | some path => load fs.files path
  | none => .ok {}

/-- The options by `discoverFrom`, when the search starts in the working directory, which may have
    been removed. -/
def discover (fs : FileSystem) (home : Option Path) (workingDirectory : Option Path) :
    Except DiscoveryError Options :=
  match workingDirectory with
  | none => .error .noWorkingDirectory
  | some dir => (discoverFrom fs home dir).mapError .config

end Options

end TestHarness
