import SheetLint.Fault
import SheetLint.Node.Class

/-!
# Linter classes

A linter class says what to do at the nodes of a kind. What it does is a list of actions: record a
lint, go on to the children, test the node or its parent, or look for equal children. A class
inherits the visits and the severity of the class it is derived from, but not its name.

An action that is not fully said is no obstacle to the class: it fails when it is its turn.

One kind is set apart: what a class does at `children` takes the place of going on to the
children.
-/

namespace SheetLint

/-- What a linter does at a node. -/
inductive Action where
  /-- Records a lint, at the node or at a location made of the items of a value. -/
  | lint (description : Value) (place : Option Value) (fixable : Bool)
  /-- Visits the traversal children. -/
  | descend
  /-- Does more if an attribute of the node equals a value. The value may not be said, which shows
  once the attribute is there. -/
  | whenAttribute (name : String) (expected : Except Fault Value) (body : List Action)
  /-- Does more if the node has a live parent of a kind. -/
  | whenParent (kind : Value) (body : List Action)
  /-- Records a lint at each traversal child of a class that equals an earlier such child. -/
  | duplicates (among : NodeClass)
  /-- Cannot be done. -/
  | fail (fault : Fault)

/-- A class of linters. -/
structure LinterClass where
  className : String
  /-- What its linters are called, unless another name is written to them. -/
  name : Value
  severity : Severity := .warning
  /-- What to do by kind of node; the first entry of a kind counts. -/
  visits : List (String × List Action) := []
  /-- Whether the class is derived from another. -/
  isDerived : Bool := false

namespace LinterClass

/-- The class that all others are derived from. It has no name and visits everything. -/
def base : LinterClass := { className := "Linter", name := .text "" }

/-- Derives a class. Without a name it is named like the class; of several visits to a kind the last
counts. -/
def derive (parent : LinterClass) (className : String) (name : Option Value)
    (severity : Option Severity) (visits : List (String × List Action)) : LinterClass where
  className
  name := name.getD (.text className)
  severity := severity.getD parent.severity
  visits := visits.reverse ++ parent.visits
  isDerived := true

/-- What a class does at nodes of a kind. -/
def visit? (c : LinterClass) (kind : String) : Option (List Action) :=
  c.visits.lookup kind

/-- What a class does instead of going on to the children. -/
def descent? (c : LinterClass) : Option (List Action) :=
  c.visit? "children"

end LinterClass

end SheetLint
