import SheetLint.Data

/-!
# Nested tables

Values are put into tables at paths of keys. Tables on the way are made where they are missing;
a list of tables is entered at its last one. A table that was opened by a header may not be
opened again, and what was given as a value may not be extended: both are remembered by path.
-/

namespace SheetLint.Toml

/-- The entries of a table. -/
abbrev Nest := List (Data × Data)

namespace Nest

/-- Changes the table at a path. `lists` says whether lists of tables may be entered. -/
def modifyAt (lists : Bool) (f : Nest → Option Nest) : (path : List String) → Nest → Option Nest
  | [], n => f n
  | k :: ks, n =>
    match Data.lookup k n with
    | none => (modifyAt lists f ks []).map fun inner => n ++ [(.text k, .table inner)]
    | some (.table inner) =>
      (modifyAt lists f ks inner).map fun inner => Entries.put Data.same (.text k) (.table inner) n
    | some (.list items) =>
      match lists, items.getLast? with
      | true, some (.table inner) =>
        (modifyAt lists f ks inner).map fun inner =>
          Entries.put Data.same (.text k) (.list (items.dropLast ++ [.table inner])) n
      | _, _ => none
    | some _ => none

/-- Adds a key that is not there yet. -/
def add (k : String) (v : Data) (n : Nest) : Option Nest :=
  if (Data.lookup k n).isSome then none else some (n ++ [(.text k, v)])

/-- Puts a value at a path, whose last key must be new. -/
def addAt (lists : Bool) (path : List String) (v : Data) (n : Nest) : Option Nest :=
  match path.getLast? with
  | none => none
  | some k => modifyAt lists (add k v) path.dropLast n

/-- Adds an empty table to the list of tables at a key. -/
def appendTable (k : String) (n : Nest) : Option Nest :=
  match Data.lookup k n with
  | none => some (n ++ [(.text k, .list [.table []])])
  | some (.list items) =>
    some (Entries.put Data.same (.text k) (.list (items ++ [.table []])) n)
  | some _ => none

/-- Adds an empty table to the list of tables at a path. -/
def appendTableAt (path : List String) (n : Nest) : Option Nest :=
  match path.getLast? with
  | none => none
  | some k => modifyAt true (appendTable k) path.dropLast n

end Nest

/-- What is remembered of paths: the tables that were opened, those made by dotted keys since the
last header, and the values that are complete. -/
structure Marks where
  opened : List (List String) := []
  pending : List (List String) := []
  closed : List (List String) := []

namespace Marks

/-- Whether a table was opened. -/
def isOpened (m : Marks) (path : List String) : Bool := m.opened.contains path

/-- Whether a path leads to or into a complete value. -/
def isClosed (m : Marks) (path : List String) : Bool :=
  m.closed.any fun p => p.isPrefixOf path

/-- Remembers that a table was opened. -/
def setOpened (m : Marks) (path : List String) : Marks := { m with opened := path :: m.opened }

/-- Remembers a table made by dotted keys; it counts as opened from the next header on. -/
def setPending (m : Marks) (path : List String) : Marks := { m with pending := path :: m.pending }

/-- Remembers that a value is complete. -/
def setClosed (m : Marks) (path : List String) : Marks := { m with closed := path :: m.closed }

/-- At a header, pending tables become opened ones. -/
def settle (m : Marks) : Marks := { m with opened := m.pending ++ m.opened, pending := [] }

/-- Forgets everything at or below a path. -/
def forget (m : Marks) (path : List String) : Marks :=
  let keep (ps : List (List String)) : List (List String) := ps.filter fun p => !path.isPrefixOf p
  { m with opened := keep m.opened, closed := keep m.closed }

end Marks

end SheetLint.Toml
