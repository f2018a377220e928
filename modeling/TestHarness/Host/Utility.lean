import TestHarness.Host.Launch
import TestHarness.Shell.Condition

/-!
# Programs

What the small programs of a host do with their arguments, their input and the files.  Each leaves a
report and the files after it; a complaint is later put behind the name by which the program was
called.

## Contents
* `Workplace`
* programs that read: `cat`, `head`, `tail`, `wc`, `tr`, `sort`, `grep`
* programs on files: `mkdir`, `rmdir`, `rm`, `touch`, `cp`, `mv`, `ls`
* programs that only write, and `sleepTime`
* `utility`, all of them by name
-/

namespace TestHarness

open Shell

/-- Where a program runs: the files, its working directory and its environment. -/
structure Workplace where
  tree : FileTree
  cwd : Location
  env : List (Octets × Octets) := []

namespace Workplace

/-- The octets of the file of that name. -/
def read (w : Workplace) (name : Octets) : Except FileFault Octets :=
  match w.tree.resolve w.cwd (Host.pathOf name) with
  | .error e => .error e
  | .ok location =>
    match w.tree.entry? location with
    | some .directory => .error .isDirectory
    | some entry => .ok (Octets.ofBytes entry.stream.data)
    | none => .error .missing

/-- Whether a name denotes the device that gives NULs without end. -/
def isZero (w : Workplace) (name : Octets) : Bool :=
  match w.tree.resolve w.cwd (Host.pathOf name) with
  | .ok location => w.tree.entry? location = some .zeroDevice
  | .error _ => false

/-- The location of a name whose last part need not exist. -/
def place (w : Workplace) (name : Octets) : Except FileFault Location :=
  let names := (Host.pathOf name).names.reverse.dropWhile (· = [])
  match names with
  | [] => .error (if name.isEmpty then .missing else .isDirectory)
  | last :: before =>
    match before.reverse.foldlM w.tree.follow (FileTree.origin w.cwd (Host.pathOf name)) with
    | .error e => .error e
    | .ok directory =>
      if w.tree.isDirectory directory then .ok (directory ++ [last]) else .error .notDirectory

/-- The names in a directory, in ascending order. -/
def list (w : Workplace) (location : Location) : List Octets :=
  let names := w.tree.entries.filterMap fun (l, _) =>
    if l.length = location.length + 1 ∧ l.dropLast = location then
      l.getLast?.map Octets.ofBytes
    else none
  names.eraseDups.mergeSort Octets.upTo

/-- The tree without an entry and everything below it. -/
def removeAll (w : Workplace) (location : Location) : FileTree :=
  ⟨w.tree.entries.filter fun (l, _) => l.take location.length ≠ location⟩

end Workplace

namespace Utility

/-- A report with the files after it. -/
abbrev Result := FileTree × Report

/-- A name in quotes. -/
def quote (name : Octets) : Octets := '\'' :: name ++ ['\'']

/-- The second line of a complaint about arguments. -/
def hint (called : Octets) : Octets :=
  "\nTry '".toList ++ called ++ " --help' for more information.".toList

/-- A report of several parts, which fails if one of them is a complaint. -/
def reportOf (status : Nat) (written : List (Octets ⊕ Octets)) : Report :=
  { written
    status := if written.any fun part => part.isRight then status else 0 }

/-- The complaint about a file. -/
def complaint (before name : Octets) (e : FileFault) : Octets ⊕ Octets :=
  .inr (before ++ name ++ ": ".toList ++ e.text.toList)

/-! ## Reading -/

/-- The lines of a text, each with its newline. -/
def lines (text : Octets) : List Octets :=
  let parts := Octets.split '\n' text
  (parts.dropLast.map (· ++ ['\n'])) ++ (if parts.getLastD [] = [] then [] else [parts.getLastD []])

/-- A count of lines or octets, as `head` and `tail` take it, and the files. -/
structure Portion where
  octets : Bool := false
  count : Nat := 10
  files : List Octets := []

/-- The portion that arguments name. -/
def portion : List Octets → Portion → Portion
  | [], p => p
  | ['-', 'n'] :: n :: rest, p => portion rest { p with count := (Octets.natural? n).getD 10 }
  | ['-', 'c'] :: n :: rest, p =>
    portion rest { p with octets := true, count := (Octets.natural? n).getD 10 }
  | ('-' :: 'n' :: n) :: rest, p => portion rest { p with count := (Octets.natural? n).getD 10 }
  | ('-' :: 'c' :: n) :: rest, p =>
    portion rest { p with octets := true, count := (Octets.natural? n).getD 10 }
  | ('-' :: c :: n) :: rest, p =>
    portion rest { p with count := (Octets.natural? (c :: n)).getD p.count }
  | name :: rest, p => portion rest { p with files := p.files ++ [name] }

/-- The first or last lines or octets of a text. -/
def Portion.cut (p : Portion) (first : Bool) (text : Octets) : Octets :=
  if p.octets then
    if first then text.take p.count else text.drop (text.length - p.count)
  else
    let all := lines text
    (if first then all.take p.count else all.drop (all.length - p.count)).flatten

/-- The number of words in a text. -/
def countWords (text : Octets) : Nat :=
  ((text.map fun c => if c.isWhitespace then ' ' else c).splitOn ' ').countP fun w => !w.isEmpty

/-- The counts of a text that some letters name, or all of them. -/
def counts (letters text : Octets) : List Nat :=
  let wanted (c : Char) : Bool := letters.isEmpty || letters.contains c
  (if wanted 'l' then [text.count '\n'] else []) ++ (if wanted 'w' then [countWords text] else []) ++
    if wanted 'c' then [text.length] else []

/-- Counts in a line, in columns of some width. -/
def countLine (width : Nat) (numbers : List Nat) (name : Octets) : Octets :=
  Octets.join [' '] (numbers.map fun n =>
    let digits := Octets.ofNat n
    List.replicate (width - digits.length) ' ' ++ digits) ++
    (if name.isEmpty then [] else ' ' :: name) ++ ['\n']

/-- The characters that a set of `tr` names. -/
def charactersOf : Octets → Octets
  | a :: '-' :: b :: rest =>
    (List.range (b.toNat + 1 - a.toNat)).map (fun i => Char.ofNat (a.toNat + i)) ++ charactersOf rest
  | c :: rest => c :: charactersOf rest
  | [] => []

/-- The characters of a set whose escapes are written out first. -/
def setOf (text : Octets) : Octets := charactersOf (unescape .shell text.length text).1

/-- A text without the second of two equal neighbours from a set. -/
def squeeze (set : Octets) : Octets → Octets
  | a :: b :: rest =>
    if a = b ∧ set.contains a then squeeze set (b :: rest) else a :: squeeze set (b :: rest)
  | cs => cs

/-- What `tr` makes of a text. -/
def transliterate (args : List Octets) (text : Octets) : Octets :=
  match args with
  | [['-', 'd'], set] => text.filter fun c => !(setOf set).contains c
  | [['-', 's'], set] => squeeze (setOf set) text
  | [source, target] =>
    let source := setOf source
    let target := setOf target
    text.map fun c =>
      match source.idxOf? c with
      | some i => target.getD i (target.getLastD c)
      | none => c
  | _ => text

/-- The lines of a text in order, backwards or as numbers or without repetitions as letters say. -/
def sortLines (letters text : Octets) : Octets :=
  let all := (lines text).map fun line => line.takeWhile (· ≠ '\n')
  let value (line : Octets) : Int := ((leadingNumber line).map (·.1)).getD 0
  let before (a b : Octets) : Bool :=
    if letters.contains 'n' && value a ≠ value b then decide (value a ≤ value b) else Octets.upTo a b
  let sorted := all.mergeSort before
  let sorted := if letters.contains 'u' then sorted.eraseDups else sorted
  (if letters.contains 'r' then sorted.reverse else sorted).flatMap (· ++ ['\n'])

/-- The pattern that a basic regular expression writes, if it stands for any part of a line: only
    `.`, `.*`, anchors and brackets have a meaning. -/
def lineField : Octets → Field
  | '.' :: '*' :: rest => ('*', false) :: lineField rest
  | '\\' :: c :: rest => (c, true) :: lineField rest
  | c :: rest =>
    (if c = '.' then ('?', false) else (c, c ≠ '[' && c ≠ ']')) :: lineField rest
  | [] => []

/-- Whether a line contains what an expression describes. -/
def lineMatches (folds : Bool) (expression line : Octets) : Bool :=
  let fold (cs : Octets) : Octets := if folds then cs.map Char.toLower else cs
  let starts := expression.head? = some '^'
  let ends := expression.getLast? = some '$'
  let inner := if starts then expression.drop 1 else expression
  let inner := if ends then inner.dropLast else inner
  let any : Field := [('*', false)]
  let field := (if starts then [] else any) ++ lineField (fold inner) ++ (if ends then [] else any)
  Field.accepts field (fold line)

/-- The lines that `grep` finds, and whether it finds any. -/
def grep (letters expression text : Octets) : Octets × Bool :=
  let found := (lines text).filter fun line =>
    lineMatches (letters.contains 'i') expression (line.takeWhile (· ≠ '\n')) != letters.contains 'v'
  let shown :=
    if letters.contains 'q' then []
    else if letters.contains 'c' then Octets.ofNat found.length ++ ['\n']
    else found.flatMap fun line => line.takeWhile (· ≠ '\n') ++ ['\n']
  (shown, !found.isEmpty)

/-- Whether a program has read all that it needs. -/
def hasEnough (name : Octets) (args : List Octets) (input : Octets) : Bool :=
  let p := portion args {}
  name = "head".toList && (if p.octets then p.count ≤ input.length else p.count ≤ input.count '\n')

/-- Whether a program reads its input. -/
def readsInput (name : Octets) (args : List Octets) : Bool :=
  let plain := args.filter fun a => a.head? ≠ some '-' || a = ['-']
  match String.ofList name with
  | "sort" => plain.isEmpty
  | "grep" => plain.length = 1
  | "cat" => (args.filter fun a => a.head? ≠ some '-' || a = ['-']).isEmpty || args.contains ['-']
  | "head" => (portion args {}).files.isEmpty
  | "tail" => (portion args {}).files.isEmpty
  | "wc" => args.all fun a => a.head? = some '-'
  | "tr" => true
  | _ => false

/-- The text of each file with its name, or a complaint; `-` and nothing at all are the input. -/
def texts (w : Workplace) (input : Octets) (names : List Octets) :
    List (Octets × Except FileFault Octets) :=
  if names.isEmpty then [([], .ok input)]
  else names.map fun name => (name, if name = ['-'] then .ok input else w.read name)

/-- What a program that reads makes of its input and files. -/
def filter (w : Workplace) (name : Octets) (args : List Octets) (input : Octets) : Report :=
  let plain := args.filter fun a => a.head? ≠ some '-' || a = ['-']
  match String.ofList name with
  | "cat" =>
    reportOf 1 ((texts w input plain).map fun (name, text) => match text with
      | .ok text => .inl text
      | .error e => complaint [] name e)
  | "wc" =>
    let letters := (args.filter fun a => a.head? = some '-' && a ≠ ['-']).flatMap (·.drop 1)
    reportOf 1 ((texts w input plain).map fun (name, text) => match text with
      | .ok text =>
        let numbers := counts letters text
        let width :=
          if numbers.length = 1 then 1 else if name.isEmpty then 7
          else (Octets.ofNat text.length).length
        .inl (countLine width numbers name)
      | .error e => complaint [] name e)
  | "tr" => Report.ofOutput (transliterate args input)
  | "sort" =>
    let letters := (args.filter fun a => a.head? = some '-').flatMap (·.drop 1)
    let all := (texts w input plain).flatMap fun (_, text) => text.toOption.getD []
    Report.ofOutput (sortLines letters all)
  | "grep" =>
    let letters := (args.filter fun a => a.head? = some '-').flatMap (·.drop 1)
    let all := (texts w input (plain.drop 1)).flatMap fun (_, text) => text.toOption.getD []
    let (shown, found) := grep letters (plain.headD []) all
    { written := [.inl shown], status := if found then 0 else 1 }
  | other =>
    let p := portion args {}
    reportOf 1 ((texts w input p.files).map fun (name, text) => match text with
      | .ok text =>
        if other = "head" ∧ p.octets ∧ w.isZero name then .inl (List.replicate p.count '\x00')
        else .inl (p.cut (other == "head") text)
      | .error .isDirectory => .inr ("error reading ".toList ++ quote name ++ ": Is a directory".toList)
      | .error e =>
        complaint "cannot open ".toList (quote name ++ " for reading".toList) e)

/-! ## Files -/

/-- Does something to each file, one after the other. -/
def onEach (w : Workplace) (names : List Octets)
    (act : Workplace → Octets → FileTree × List (Octets ⊕ Octets)) : Result :=
  let (tree, written) := names.foldl
    (fun (tree, written) name =>
      let (tree, more) := act { w with tree } name
      (tree, written ++ more))
    (w.tree, [])
  (tree, reportOf 1 written)

/-- Makes a directory. -/
def makeDirectory (w : Workplace) (name : Octets) : FileTree × List (Octets ⊕ Octets) :=
  let fail (why : String) : FileTree × List (Octets ⊕ Octets) :=
    (w.tree, [.inr ("cannot create directory ".toList ++ quote name ++ ": ".toList ++ why.toList)])
  match w.place name with
  | .error .isDirectory => fail "File exists"
  | .error e => fail e.text
  | .ok location =>
    if (w.tree.entry? location).isSome then fail "File exists"
    else (w.tree.put location .directory, [])

/-- Makes a directory and those above it. -/
def makeDirectories (w : Workplace) (name : Octets) : FileTree × List (Octets ⊕ Octets) :=
  match w.tree.makeAlong (FileTree.origin w.cwd (Host.pathOf name)) (Host.pathOf name).names with
  | .ok (tree, location) =>
    if tree.isDirectory location then (tree, [])
    else (w.tree, [.inr ("cannot create directory ".toList ++ quote name ++ ": File exists".toList)])
  | .error e => (w.tree, [complaint "cannot create directory ".toList (quote name) e])

/-- Removes a directory, which has to be empty. -/
def removeDirectory (w : Workplace) (name : Octets) : FileTree × List (Octets ⊕ Octets) :=
  let fail (why : String) : FileTree × List (Octets ⊕ Octets) :=
    (w.tree, [.inr ("failed to remove ".toList ++ quote name ++ ": ".toList ++ why.toList)])
  match w.tree.resolve w.cwd (Host.pathOf name) with
  | .error e => fail e.text
  | .ok location =>
    if !w.tree.isDirectory location then fail "Not a directory"
    else if !(w.list location).isEmpty then fail "Directory not empty"
    else (w.removeAll location, [])

/-- Removes a file, or with `all` a directory with everything in it. -/
def removeFile (all force : Bool) (w : Workplace) (name : Octets) :
    FileTree × List (Octets ⊕ Octets) :=
  let fail (e : FileFault) : FileTree × List (Octets ⊕ Octets) :=
    (w.tree, [complaint "cannot remove ".toList (quote name) e])
  match w.tree.resolve w.cwd (Host.pathOf name) with
  | .error e => if force then (w.tree, []) else fail e
  | .ok location =>
    if w.tree.isDirectory location && !all then fail .isDirectory else (w.removeAll location, [])

/-- Makes an empty file unless there is something. -/
def touchFile (w : Workplace) (name : Octets) : FileTree × List (Octets ⊕ Octets) :=
  match w.place name with
  | .error .isDirectory => (w.tree, [])
  | .error e => (w.tree, [complaint "cannot touch ".toList (quote name) e])
  | .ok location =>
    ((if (w.tree.entry? location).isSome then w.tree else w.tree.put location (.file [])), [])

/-- The location to which a file is copied or moved: inside a directory, it keeps its name. -/
def destination (w : Workplace) (source target : Octets) : Except FileFault Location :=
  let inside : Except FileFault Location :=
    match w.tree.resolve w.cwd (Host.pathOf target), w.place source with
    | .ok directory, .ok location =>
      if w.tree.isDirectory directory then .ok (directory ++ location.getLast?.toList)
      else .error .notDirectory
    | _, _ => .error .notDirectory
  match inside with
  | .ok location => .ok location
  | .error _ => w.place target

/-- Copies or moves a file. -/
def transfer (moves : Bool) (w : Workplace) (source target : Octets) : Result :=
  match w.tree.resolve w.cwd (Host.pathOf source) with
  | .error e => (w.tree, reportOf 1 [complaint "cannot stat ".toList (quote source) e])
  | .ok location =>
    match w.tree.entry? location, destination w source target with
    | some (.file data), .ok place =>
      let tree := if moves then w.removeAll location else w.tree
      (tree.put place (.file data), {})
    | some .directory, .ok place =>
      if moves then
        (⟨w.tree.entries.map fun (l, entry) =>
          (if l.take location.length = location then place ++ l.drop location.length else l, entry)⟩,
          {})
      else
        (w.tree, reportOf 1 [.inr ("-r not specified; omitting directory ".toList ++ quote source)])
    | _, .error e =>
      (w.tree, reportOf 1 [complaint "cannot create regular file ".toList (quote target) e])
    | _, _ => (w.tree, {})

/-- Lists a directory or a file. -/
def listing (w : Workplace) (name : Octets) : FileTree × List (Octets ⊕ Octets) :=
  match w.tree.resolve w.cwd (Host.pathOf name) with
  | .error e => (w.tree, [complaint "cannot access ".toList (quote name) e])
  | .ok location =>
    let names :=
      if w.tree.isDirectory location then (w.list location).filter fun n => n.head? ≠ some '.'
      else [name]
    (w.tree, [.inl (names.flatMap (· ++ ['\n']))])

/-! ## Only writing -/

/-- The text of a location as a path. -/
def pathText (location : Location) : Octets :=
  if location.isEmpty then ['/'] else location.flatMap fun name => '/' :: Octets.ofBytes name

/-- The numbers from one to another. -/
def sequence (first step last : Int) : List Int :=
  if step = 0 then []
  else (List.range (((last - first) / step) + 1).toNat).map fun (i : Nat) => first + step * (i : Int)

/-- The span that an argument of `sleep` names. -/
def sleepTime (arg : Octets) : Option Duration :=
  let unit (c : Char) : Option Nat := match c with
    | 's' => some 1
    | 'm' => some 60
    | 'h' => some 3600
    | 'd' => some 86400
    | _ => none
  let (digits, seconds) := match arg.getLast?.bind unit with
    | some n => (arg.dropLast, n)
    | none => (arg, 1)
  let (whole, fraction) := match Octets.cut? '.' digits with
    | some (whole, fraction) => (whole, fraction)
    | none => (digits, [])
  if digits = "infinity".toList ∨ digits = "inf".toList then some (Duration.seconds 1000000000000)
  else if (whole ++ fraction).isEmpty ∨ !(whole ++ fraction).all Char.isDigit then none
  else
    let micro := (fraction ++ List.replicate 6 '0').take 6
    some (((Octets.natural? whole).getD 0 * 1000000 + (Octets.natural? micro).getD 0) * seconds)

/-- The last name of a path, without an ending. -/
def baseName (path ending : Octets) : Octets :=
  let names := (Octets.split '/' path).filter fun n => !n.isEmpty
  match names.getLast? with
  | none => path.take 1
  | some name =>
    if ending.isSuffixOf name ∧ ending ≠ name then name.take (name.length - ending.length) else name

/-- A path without its last name. -/
def dirName (path : Octets) : Octets :=
  match (Host.pathOf path).parent with
  | none => path.take 1
  | some ⟨[]⟩ => ['.']
  | some p => Octets.ofBytes p.bytes

/-! ## By name -/

/-- What a program does that does not read its input. -/
def run (w : Workplace) (name called : Octets) (args : List Octets) : Result :=
  let options := (args.filter fun a => a.head? = some '-').flatMap (·.drop 1)
  let plain := args.filter fun a => a.head? ≠ some '-'
  let missing (status : Nat) : Result :=
    (w.tree, { written := [.inr ("missing operand".toList ++ hint called)], status })
  let output (text : Octets) : Result := (w.tree, Report.ofOutput text)
  let files : Lookup := fun name =>
    (w.tree.resolve w.cwd (Host.pathOf name)).toOption.bind w.tree.entry?
  match String.ofList name with
  | "true" => (w.tree, {})
  | "false" => (w.tree, { status := 1 })
  | "echo" => (w.tree, echo .program args)
  | "printf" =>
    if args.isEmpty then missing 1 else (w.tree, printf .program args)
  | "test" => (w.tree, condition .program files false args)
  | "[" => (w.tree, condition .program files true args)
  | "pwd" => output (pathText w.cwd ++ ['\n'])
  | "env" => output (w.env.flatMap fun (key, value) => key ++ '=' :: value ++ ['\n'])
  | "printenv" =>
    if plain.isEmpty then output (w.env.flatMap fun (key, value) => key ++ '=' :: value ++ ['\n'])
    else
      let values := plain.map fun key => w.env.lookup key
      (w.tree,
        { written := [.inl (values.reduceOption.flatMap (· ++ ['\n']))]
          status := if values.all Option.isSome then 0 else 1 })
  | "mkdir" =>
    if plain.isEmpty then missing 1
    else onEach w plain (if options.contains 'p' then makeDirectories else makeDirectory)
  | "rmdir" => if plain.isEmpty then missing 1 else onEach w plain removeDirectory
  | "rm" =>
    let force := options.contains 'f'
    if plain.isEmpty then if force then (w.tree, {}) else missing 1
    else onEach w plain (removeFile (options.contains 'r' || options.contains 'R') force)
  | "touch" => onEach w plain touchFile
  | "cp" => match plain with
    | [source, target] => transfer false w source target
    | _ => missing 1
  | "mv" => match plain with
    | [source, target] => transfer true w source target
    | _ => missing 1
  | "ls" =>
    let (tree, report) := onEach w (if plain.isEmpty then [['.']] else plain) listing
    (tree, { report with status := 2 * report.status })
  | "basename" => match plain with
    | [path] => output (baseName path [] ++ ['\n'])
    | [path, ending] => output (baseName path ending ++ ['\n'])
    | _ => missing 1
  | "dirname" => match plain with
    | [] => missing 1
    | paths => output (paths.flatMap fun p => dirName p ++ ['\n'])
  | "seq" =>
    let numbers (first step last : Int) : Result :=
      output ((sequence first step last).flatMap fun n => Octets.ofInt n ++ ['\n'])
    match args.map Octets.integer? with
    | [some last] => numbers 1 1 last
    | [some first, some last] => numbers first 1 last
    | [some first, some step, some last] => numbers first step last
    | _ => missing 1
  | _ => (w.tree, filter w name args [])

end Utility

end TestHarness
