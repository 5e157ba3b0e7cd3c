import SheetLint.Project.Files
import SheetLint.Settings.Layers
import SheetLint.Toml.Document
import SheetLint.Yaml.Document

/-!
# Loading settings

Settings come from two places: a file of defaults that is packaged with the linters, and the
project file nearest to where one starts. The nearest project file decides alone, whatever it says
or fails to say. A file that cannot be read or parsed is logged and counts as empty; only one that
is not text at all, or holds something that is well formed and stands for nothing, is a failure.
-/

namespace SheetLint

/-- Loading: logs messages and may fail. -/
abbrev Load := ExceptT Fault (StateM (List Message))

namespace Load

/-- The packaged defaults. -/
def packagedDefaults : String :=
  "parent_policy: refresh\nlinters: \x7b\x7d\n"

/-- The name of a project file. -/
def projectFile : String := "pyproject.toml"

/-- The key of the tools' tables in a project file. -/
def toolKey : String := "tool"

/-- The key of this tool's table among them. -/
def sectionKey : String := "scss-lint"

/-- Logs a message. -/
def log (m : Message) : Load Unit := modify (· ++ [m])

/-- The text of a file. -/
def decode (content : ByteArray) : Load String :=
  match String.fromUTF8? content with
  | some s => return s
  | none => throw .undecodable

/-- What was read from a file. One that is not well formed is logged and counts as `empty`. -/
def orEmpty (message : Message) (empty : α) (found : Except Flaw α) : Load α := do
  match found with
  | .ok a => return a
  | .error .malformed =>
    log message
    return empty
  | .error (.fault fault) => throw fault

/-- The entries of defaults written as a document; one that is no table has none. -/
def defaultsOf (source : Yaml.Source) (path : String) : Load (List (Data × Data)) := do
  match ← orEmpty (.badDefaults path) (.table []) (Yaml.parse source) with
  | .table entries => return entries
  | _ => return []

/-- The defaults: the packaged ones, or those of a file if its path is given. -/
def defaults (fs : Files) (file : Option Path) : Load (List (Data × Data)) := do
  match file with
  | none => defaultsOf (Yaml.Source.ofText packagedDefaults) "default.yml"
  | some path =>
    match fs.follow 0 [] path with
    | none => return []
    | some .directory =>
      log (.badDefaults path.text)
      return []
    | some (.file content) => defaultsOf (Yaml.Source.ofBytes content) path.text

/-- This tool's table in a project file. -/
def sectionOf (entries : List (Data × Data)) : Except Fault (List (Data × Data)) :=
  match Layers.orEmpty (Data.lookup toolKey entries) with
  | .table tools =>
    match Data.lookup sectionKey tools with
    | some (.table own) => .ok own
    | _ => .ok []
  | other => .error (.missingAttribute other.typeName "get")

/-- The nearest project file at or above a directory. -/
def nearest? (fs : Files) (start : Path) : Option (Path × FileEntry) :=
  start.upward.findSome? fun dir =>
    let path := dir ++ [projectFile]
    (fs.entry? path).map (path, ·)

/-- The settings of the project a written path lies in. A path outside of the base lies in none. -/
def project (fs : Files) (start : Path) : Load (List (Data × Data)) := do
  unless start.isPossible do throw .badPath
  match (Path.resolve [] start).bind (nearest? fs) with
  | none => return []
  | some (path, .directory) =>
    log (.badProject path.text)
    return []
  | some (path, .file content) =>
    let entries ← orEmpty (.badProject path.text) [] (Toml.parse (← decode content))
    match sectionOf entries with
    | .ok own => return own
    | .error fault => throw fault

/-- The project's settings over the defaults. -/
def all (fs : Files) (file : Option Path) (start : Path) : Load (List (Data × Data)) := do
  let below ← defaults fs file
  let above ← project fs start
  return Layers.merge below above

/-- Logs a warning about settings. Whoever loads settings gets the log in words, as it is written.
So a warning that cannot be put into words fails here, although the settings do without it. -/
def warn (w : Settings.Warning Data) : Load Unit :=
  match w.fault? Reading.data with
  | some fault => throw fault
  | none => log (w.message Reading.data)

/-- A result, after the warnings that come with it. -/
def warned (found : Except Fault (α × List (Settings.Warning Data))) : Load α := do
  match found with
  | .error fault => throw fault
  | .ok (a, ws) =>
    ws.forM warn
    return a

/-- Settings made of loaded entries. -/
def settings (entries : List (Data × Data)) : Load (Settings Data) :=
  warned (Settings.ofEntries Reading.data entries)

/-- The severity of a linter's lints under loaded settings. -/
def severity (c : Settings Data) (linter : String) : Load Severity :=
  warned (c.severity Reading.data (.text linter) .warning)

/-- Loads something: the outcome and what was logged. -/
def perform (l : Load α) : Except Fault α × List Message :=
  (ExceptT.run l).run []

end Load

end SheetLint
