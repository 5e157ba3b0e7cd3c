import SheetLint.Linter
import SheetLint.Sorting

/-!
# Linting a document

All enabled linters run over one document, one after the other. Of equal lints the first is kept,
and what remains is sorted by file, location and name of the linter; a summary is logged.
-/

namespace SheetLint

namespace Document

/-- Runs a linter over a document, or a stand-in, which hands out what was prepared. -/
def runOne (linter root file : Value) : Edit (List Value) := do
  let s ← get
  Edit.tryRead (·.checkMethod linter "run")
  match linter with
  | .agent i =>
    match s.agent? i with
    | some { role := .linter _, .. } => Linter.run i root file
    | some { role := .standIn x, .. } => Edit.tryRead (·.items x.prepared)
    | _ => throw (s.methodFault linter "run")
  | _ => throw (s.methodFault linter "run")

/-- Whether a linter is enabled by settings. Settings that cannot say so are refused before the
linter is asked for its name. -/
def isEnabled (settings linter : Value) : Edit Bool := do
  let _ ← Edit.tryRead (·.getAttribute settings "is_linter_enabled")
  Edit.enabled settings (← Edit.tryRead (·.getAttribute linter "name"))

/-- Adds those lints that equal none that is there, where values are compared to a depth of
`depth`. -/
def addNewTo (s : Store) (depth : Nat) : (found lints : List Value) → Except Fault (List Value)
  | found, [] => .ok found
  | found, l :: rest =>
    match s.isAmong depth l found with
    | .error fault => .error fault
    | .ok isThere => addNewTo s depth (if isThere then found else found ++ [l]) rest

/-- Adds those lints that equal none that is there. -/
def addNew (s : Store) (found lints : List Value) : Except Fault (List Value) :=
  addNewTo s (s.depthAmong (found ++ lints)) found lints

/-- Collects the lints of the enabled linters. -/
def collectLints (settings root file : Value) :
    (linters : List Value) → (found : List Value) → Edit (List Value)
  | [], found => return found
  | linter :: rest, found => do
    if ← isEnabled settings linter then
      let lints ← runOne linter root file
      collectLints settings root file rest (← Edit.tryRead (addNew · found lints))
    else
      let name ← Edit.tryRead (·.getAttribute linter "name")
      Edit.log (.skipped (← Edit.read (·.bare name)))
      collectLints settings root file rest found

/-- Lints by file, location and name of the linter. -/
def sorted (s : Store) (lints : List Value) : Except Fault (List Value) :=
  match lints.mapM s.sortKey with
  | .error fault => .error fault
  | .ok keys =>
    let depth := s.depthAmong lints
    (Sorting.sort (fun a b => s.compareRow depth .lt a.1 b.1) (keys.zip lints)).map
      (·.map (·.2))

/-- Lints a document with these linters. -/
def lint (linters : List Value) (settings root file : Value) : Edit (List Value) := do
  let found ← collectLints settings root file linters []
  let lints ← Edit.tryRead (sorted · found)
  let errors ← Edit.tryRead (·.countErrors lints)
  Edit.log (.summary (← Edit.read (·.bare file)) lints.length errors)
  return lints

end Document

end SheetLint
