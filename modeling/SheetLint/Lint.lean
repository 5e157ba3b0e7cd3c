import SheetLint.Store.Attribute

/-!
# Lints and their locations

A lint is what a linter found: who found it, in which file, where, what and how serious. Two
lints are equal when all of these are; whether a lint can be fixed plays no part.
-/

namespace SheetLint

namespace Store

/-- The line and column of anything that has a line. A missing column counts as the first. -/
def lineAndColumn (s : Store) (v : Value) : Except Fault (Value × Value) :=
  match s.getAttribute v "line" with
  | .error fault => .error fault
  | .ok .null =>
    match s.getAttribute v "kind" with
    | .error fault => .error fault
    | .ok kind =>
      match s.tryBare kind with
      | .error fault => .error fault
      | .ok text => .error (.noLine text)
  | .ok line =>
    match s.getAttribute v "column" with
    | .error fault => .error fault
    | .ok column => .ok (line, if column.isNull then .int 1 else column)

/-- Whether a value, which has to be a lint, should fail the build. -/
def isError (s : Store) (v : Value) : Except Fault Bool :=
  match v with
  | .lint _ _ _ _ _ (.severity .error) _ => .ok true
  | .lint .. => .ok false
  | _ => .error (s.methodFault v "is_error")

/-- How many of these should fail the build. -/
def countErrors (s : Store) : List Value → Except Fault Nat
  | [] => .ok 0
  | v :: vs =>
    match s.isError v with
    | .error fault => .error fault
    | .ok b => (s.countErrors vs).map fun n => if b then n + 1 else n

/-- What lints are sorted by: file, location, name of the linter. -/
def sortKey (s : Store) (v : Value) : Except Fault (List Value) :=
  match s.getAttribute v "filename" with
  | .error fault => .error fault
  | .ok file =>
    match s.getAttribute v "location" with
    | .error fault => .error fault
    | .ok location =>
      match s.getAttribute v "linter" with
      | .error fault => .error fault
      | .ok linter => (s.getAttribute linter "name").map fun name => [file, location, name]

end Store

namespace Edit

/-- A location made of parts; those that are missing are one. -/
def locationOfParts (parts : List Value) : Edit Value :=
  let part (i : Nat) : Value := (parts[i]?).getD (.int 1)
  if 3 < parts.length then throw (.tooManyParts parts.length)
  else newLocation (part 0) (part 1) (part 2)

/-- A location made of the items of a value. -/
def locationOfItems (v : Value) : Edit Value := do
  let s ← get
  match s.items v with
  | .ok parts => locationOfParts parts
  | .error _ => throw (.notSpreadable "scss_lint.domain.location.Location" (s.typeName v))

/-- The location of anything that has a line. -/
def locationOf (v length : Value) : Edit Value := do
  let (line, column) ← tryRead (·.lineAndColumn v)
  newLocation line column length

/-- Makes a lint. -/
def newLint (source file location description severity : Value) (fixable : Bool) : Edit Value := do
  return .lint (← newMark) source file location description severity fixable

end Edit

end SheetLint
