import SheetLint.Fault
import SheetLint.Settings

/-!
# Layered settings

A project's settings lie over the packaged ones. A key of the project hides the same key below,
except that the sections of linters are joined: a linter has the keys of both its sections, and
the project's value where both have one. A section that is empty or nothing does not count, and
one that is something else than a table hides what is below it.
-/

namespace SheetLint

namespace Data

/-- The name of a datum's type. -/
def typeName : Data → String
  | .null => "NoneType"
  | .bool _ => "bool"
  | .int _ => "int"
  | .float .. => "float"
  | .text _ => "str"
  | .list _ => "list"
  | .tuple _ => "tuple"
  | .table _ => "dict"
  | .record name _ => name
  | .moment m => m.typeName
  | .bytes _ => "bytes"
  | .set _ => "set"
  | .word _ => "object"
  | .thing _ type => type

end Data

namespace Layers

/-- What is present and counts as true, and else an empty table. -/
def orEmpty (d : Option Data) : Data :=
  match d with
  | some x => if x.truthy then x else .table []
  | none => .table []

/-- One section over another. -/
def joinSections (below above : Data) : Data :=
  match below, above with
  | .table b, .table a => .table (Entries.union Data.same b a)
  | _, _ => if above.truthy then above else below

/-- The section of a name in both layers, joined. -/
def sectionOf (below above : List (Data × Data)) (name : Data) : Data :=
  joinSections (orEmpty (Entries.get? Data.same name below))
    (orEmpty (Entries.get? Data.same name above))

/-- The linters of both layers: those below in their order, then the new ones above. -/
def joinLinters (below above : List (Data × Data)) : List (Data × Data) :=
  (below.map (·.1) ++ above.map (·.1)).foldl
    (fun es name => Entries.put Data.same name (sectionOf below above name) es) []

/-- The linters of a layer. -/
def linters (entries : List (Data × Data)) : Data :=
  orEmpty (Data.lookup Settings.lintersKey entries)

/-- One layer of settings over another. -/
def merge (below above : List (Data × Data)) : List (Data × Data) :=
  let merged := Entries.union Data.same below above
  match linters below, linters above with
  | .table b, .table a =>
    Entries.put Data.same (.text Settings.lintersKey) (.table (joinLinters b a)) merged
  | _, _ => merged

/-- One layer over another, where both have to be tables. -/
def mergeData (below above : Data) : Except Fault Data :=
  match below, above with
  | .table b, .table a => .ok (.table (merge b a))
  | .table _, d => .error (.notMapping d.typeName)
  | d, _ => .error (.notMapping d.typeName)

end Layers

end SheetLint
