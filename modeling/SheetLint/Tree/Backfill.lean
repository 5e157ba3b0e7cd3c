import SheetLint.Store.Attribute

/-!
# Back-filled locations

A parser does not position every expression. One without a line takes the line of the node that
contains it, and with it whatever else of its location is missing. A line that is there is never
overwritten, and nothing but what counts as an expression is ever touched.
-/

namespace SheetLint

namespace Position

/-- A location completed from a container's: nothing changes if there is a line. -/
def completed (own container : Position) : Position :=
  if own.line.isNull then
    { line := container.line
      column := if own.column.isNull then container.column else own.column
      file := if own.file.isNull then container.file else own.file }
  else own

end Position

namespace Store

/-- Whether a node counts as an expression. -/
def isExpression (s : Store) (n : NodeId) : Bool :=
  s.truthy (s.node n).expressionMark

/-- Completes the location of an expression from a node that contains it. -/
def fill (s : Store) (child container : NodeId) : Store :=
  let x := s.node child
  if s.isExpression child then
    s.setNode child { x with position := x.position.completed (s.node container).position }
  else s

/-- Whether filling would look at the container at all. -/
def wantsFilling (s : Store) (child : NodeId) : Bool :=
  s.isExpression child && !(s.node child).hasLine

end Store

namespace Edit

/-- Completes one part of a location from an attribute of the container, if it is missing. -/
def fillPart (child : NodeId) (container : Value) (part : String)
    (current : Position → Value) (write : Position → Value → Position) : Edit Unit := do
  let x ← read (·.node child)
  if (current x.position).isNull then
    let v ← tryRead (·.getAttribute container part)
    modify fun s => s.setNode child { x with position := write x.position v }

/-- Completes a location from anything that has one. What is no node, and nodes other than
expressions without a line, are left as they are. -/
def fill (target container : Value) : Edit Unit := do
  match target, container with
  | .node child, .node c => modify fun s => s.fill child c
  | .node child, _ =>
    if ← read (·.wantsFilling child) then
      fillPart child container "line" (·.line) fun p v => { p with line := v }
      fillPart child container "column" (·.column) fun p v => { p with column := v }
      fillPart child container "filename" (·.file) fun p v => { p with file := v }
  | _, _ => return

/-- The name part of an argument: the first member of a pair, or a bare expression. -/
def argumentName : Value → Except Fault Value
  | .tuple _ [] => .error (.outOfRange "tuple")
  | .tuple _ (x :: _) => .ok x
  | v => .ok v

/-- Completes the locations of the name parts of arguments. -/
def fillArguments (args container : Value) : Edit Unit := do
  let items ← tryRead (·.items args)
  items.forM fun arg => do
    fill (← tryRead fun _ => argumentName arg) container

/-- A new variable that stands where its container does. -/
def newVariable (name container : Value) : Edit NodeId := do
  let line ← tryRead (·.getAttribute container "line")
  let column ← tryRead (·.getAttribute container "column")
  let file ← tryRead (·.getAttribute container "filename")
  newNode { position := { line, column, file }, form := .expression (.variable name) }

end Edit

end SheetLint
