import SheetLint.Node.Form

/-!
# Nodes

A node has a form, a location that may be partly missing, and a reference to the parent it was
last attached to. The reference does not keep the parent alive: what it names may be gone.

Attributes that the class does not declare can be written to a node all the same. Two of them
stand in for what the class says: the kind, and whether the node counts as an expression when
locations are completed. One that has the name of a method takes its place, and cannot be called.

All attributes together can be replaced by a table. It then backs the node: what is written to one
is written to the other, and fields that the table lacks and the class has no value for are lost.
-/

namespace SheetLint

/-- Where a node stands in its source. Missing parts are null. -/
structure Position where
  line : Value := .null
  column : Value := .null
  file : Value := .null
  deriving Inhabited

/-- What a node refers to as its parent. -/
inductive Backref where
  | none
  | to (parent : Value)
  /-- The parent it referred to is gone. -/
  | gone
  /-- Something that is no reference was written in its place. -/
  | other (v : Value)
  deriving Inhabited

namespace Backref

/-- The name of the attribute that refers to the parent. -/
def name : String := "_parent_ref"

/-- The reference that is there once a value was written in its place. -/
def ofValue (v : Value) : Backref :=
  if v.isNull then .none else .other v

/-- What is held in place of a reference; a parent is not held. -/
def held : Backref → List Value
  | .other v => [v]
  | _ => []

/-- Whether something was ever referred to. -/
def isSet : Backref → Bool
  | .to _ => true
  | .gone => true
  | _ => false

end Backref

/-- A node of a tree. -/
structure Node where
  position : Position := {}
  form : Form := .bare
  parent : Backref := .none
  /-- Attributes that the class does not declare, by name, in the order in which they were written.
  The reference to a parent has its place among them, but not its value. -/
  notes : List (String × Value) := []
  /-- The table that backs the node, if there is one. -/
  backing : Option TableId := none
  deriving Inhabited

namespace Node

/-- The class of a node. -/
def nodeClass (n : Node) : NodeClass := n.form.nodeClass

/-- The kind of a node: that of its class, unless another was written to it. -/
def kind (n : Node) : Value := (n.notes.lookup "kind").getD (.text n.nodeClass.kind)

/-- Whether a node counts as an expression, as a value that is true or not: what its class says,
unless something else was written to it. -/
def expressionMark (n : Node) : Value :=
  (n.notes.lookup "is_expression").getD (.bool n.form.isExpression)

/-- Whether the class of a node is one of expressions. -/
def isScript (n : Node) : Bool := n.form.isExpression

/-- Whether a node has a line. -/
def hasLine (n : Node) : Bool := !n.position.line.isNull

/-- All fields by name, the location first. -/
def fields (n : Node) : List (String × Value) :=
  [("line", n.position.line), ("column", n.position.column), ("filename", n.position.file)] ++
    n.nodeClass.fieldNames.zip n.form.fields

/-- Everything a node holds: its location, its fields, its notes and the table that backs it. The
parent is not held. -/
def held (n : Node) : List Value :=
  n.fields.map (·.2) ++ n.notes.map (·.2) ++ n.parent.held ++ n.backing.toList.map .table

/-- Replaces the value of a field, if the node has one of that name. -/
def setField? (n : Node) (field : String) (v : Value) : Option Node :=
  match field with
  | "line" => some { n with position := { n.position with line := v } }
  | "column" => some { n with position := { n.position with column := v } }
  | "filename" => some { n with position := { n.position with file := v } }
  | _ =>
    let names := n.nodeClass.fieldNames
    if names.contains field then
      let values := (names.zip n.form.fields).map fun (f, old) => if f == field then v else old
      (Form.ofFields? n.nodeClass values).map fun form => { n with form }
    else none

/-- Writes under a name. -/
def write (n : Node) (name : String) (v : Value) : Node :=
  match n.setField? name v with
  | some x => x
  | none =>
    if name == Backref.name then
      { n with parent := .ofValue v, notes := Entries.put (· == ·) name .null n.notes }
    else { n with notes := Entries.put (· == ·) name v n.notes }

/-- A node whose reference to a parent has a place among its notes: the last, if it had none. -/
def placed (n : Node) : Node :=
  if n.parent.isSet && (n.notes.lookup Backref.name).isNone then
    { n with notes := n.notes ++ [(Backref.name, .null)] }
  else n

end Node

end SheetLint
