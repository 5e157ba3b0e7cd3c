/-!
# Directories and files

The part of a file system that settings are looked up in, as a list of files and directories by
path below a base. A directory that holds something exists without being listed.
-/

namespace SheetLint

/-- The names on the way to a file or directory, from the base. -/
abbrev Path := List String

namespace Path

/-- A path as it is written. -/
def text (p : Path) : String := String.intercalate "/" p

/-- The names of a written path; dots for the same directory are left out. -/
def ofText (s : String) : Path :=
  (s.splitOn "/").filter fun name => name != "" && name != "."

/-- Whether a file system can have such a path. No name has a null character. -/
def isPossible (p : Path) : Bool := !p.any (·.contains '\x00')

/-- A path without steps to the directory above, unless such a step leaves the base. -/
def resolve : (done : Path) → Path → Option Path
  | done, [] => some done.reverse
  | [], ".." :: _ => none
  | _ :: done, ".." :: rest => resolve done rest
  | done, name :: rest => resolve (name :: done) rest

/-- A directory and all directories above it, up to the base. -/
def upward (p : Path) : List Path :=
  (List.range (p.length + 1)).map fun i => p.take (p.length - i)

end Path

/-- What is at a path. -/
inductive FileEntry where
  | file (content : ByteArray)
  | directory

namespace FileEntry

/-- Whether something is a directory. -/
def isDirectory : FileEntry → Bool
  | .directory => true
  | .file _ => false

end FileEntry

/-- The files and directories below a base. Of two files at one path the later counts. -/
structure Files where
  files : List (Path × ByteArray) := []
  directories : List Path := []

namespace Files

/-- What is at a path, if anything. -/
def entry? (fs : Files) (p : Path) : Option FileEntry :=
  match fs.files.reverse.lookup p with
  | some content => some (.file content)
  | none =>
    let isAbove (q : Path) : Bool := p.isPrefixOf q
    if p.isEmpty || fs.directories.any isAbove || fs.files.any fun f => isAbove f.1 then
      some .directory
    else none

/-- Whether there is a directory at a path. -/
def isDirectory (fs : Files) (p : Path) : Bool :=
  (fs.entry? p).elim false FileEntry.isDirectory

/-- What is found by going along a written path from a place that is so many directories above the
base, or at a path below it. Every step has to start in a directory that exists; above the base
nothing but directories is known. -/
def follow (fs : Files) : (above : Nat) → (here : Path) → Path → Option FileEntry
  | 0, here, [] => fs.entry? here
  | _ + 1, _, [] => some .directory
  | 0, here, name :: rest =>
    if !fs.isDirectory here then none
    else if name != ".." then fs.follow 0 (here ++ [name]) rest
    else if here.isEmpty then fs.follow 1 [] rest
    else fs.follow 0 here.dropLast rest
  | above + 1, _, name :: rest =>
    if name == ".." then fs.follow (above + 2) [] rest else none

/-- Files and directories from written paths. Every directory on the way to a file is made. -/
def ofWritten (files : List (String × ByteArray)) (directories : List String) : Files :=
  let onTheWay (p : Path) : List Path :=
    (List.range p.length).filterMap fun i => Path.resolve [] (p.take i)
  { files := files.filterMap fun f => (Path.resolve [] (Path.ofText f.1)).map (·, f.2)
    directories := directories.filterMap (fun d => Path.resolve [] (Path.ofText d)) ++
      files.flatMap fun f => onTheWay (Path.ofText f.1) }

end Files

end SheetLint
