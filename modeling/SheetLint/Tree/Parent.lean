import SheetLint.Store.Attribute

/-!
# Parents

While a tree is walked every child gets a reference back to the node it was reached from. Attaching
to the current live parent again changes nothing; a different live parent is replaced under the
refreshing policy, which is logged, and refused under the strict one. A parent that is no longer
live never stands in the way.

A parent need not be a node: everything that has a place or a mark of its own can be referred to,
lists, tuples and tables apart. Nor need the child be one, as long as there is a place in it for the
reference.
-/

namespace SheetLint

namespace Value

/-- Whether a value can be referred to as a parent. -/
def isReferable : Value → Bool
  | .node _ => true
  | .location .. => true
  | .lint .. => true
  | .agent _ => true
  | _ => false

end Value

namespace Store

/-- What a value has as its reference to a parent. -/
def backref (s : Store) (child : Value) : Except Fault Backref :=
  match child with
  | .node n => .ok (s.node n).parent
  | .agent i =>
    match (s.agent? i).bind Agent.parent with
    | some r => .ok r
    | none => .error (s.methodFault child "_parent_ref")
  | _ => .error (s.methodFault child "_parent_ref")

/-- Writes a parent reference. -/
def setParent (s : Store) (child parent : Value) : Store :=
  match child with
  | .node n => s.setNode n { s.node n with parent := .to parent }
  | .agent i => (s.agent? i).elim s fun a => s.setAgent i { a with parent := some (.to parent) }
  | _ => s

/-- Refers to a parent, if that is possible. -/
def refer (s : Store) (child parent : Value) : Except Fault Store :=
  if parent.isReferable then .ok (s.setParent child parent)
  else .error (.noBackReference (s.typeName parent))

/-- The kind of anything that has one, in print. -/
def kindOf (s : Store) (v : Value) : Except Fault String :=
  (s.getAttribute v "kind").bind s.tryBare

/-- The line of anything that has one, in print. -/
def lineOf (s : Store) (v : Value) : Except Fault String :=
  (s.getAttribute v "line").bind s.tryBare

/-- The fault of giving a second parent to a value that is attached to `current`. -/
def secondParent (s : Store) (child current : Value) : Except Fault Fault := do
  let kind ← s.kindOf child
  let line ← s.lineOf child
  let parentKind ← s.kindOf current
  let parentLine ← s.lineOf current
  return .secondParent kind line parentKind parentLine

/-- What is logged when a value moves from one live parent to another. What it tells has to be
there, but need not have a printed form. -/
def reparented (s : Store) (child current parent : Value) : Except Fault Message := do
  let kind ← s.getAttribute child "kind"
  let line ← s.getAttribute child "line"
  let fromKind ← s.getAttribute current "kind"
  let toKind ← s.getAttribute parent "kind"
  return .reparented (s.bare kind) (s.bare line) (s.bare fromKind) (s.bare toKind)

/-- Attaches a child to a parent. -/
def attach (s : Store) (child parent : Value) (policy : ParentPolicy) : Except Fault Store := do
  match ← s.referent (← s.backref child) with
  | none => if parent.isNull then return s else s.refer child parent
  | some current =>
    if current.identical parent then return s
    match policy with
    | .strict => throw (← s.secondParent child current)
    | .refresh =>
      let message ← s.reparented child current parent
      (s.note message).refer child parent

end Store

namespace Edit

/-- Attaches a value to a value. -/
def attach (child parent : Value) (policy : ParentPolicy) : Edit Unit :=
  change (·.attach child parent policy)

/-- The live parent of a value that has to be a node. -/
def parentOf (v : Value) : Edit (Option Value) := do
  match v with
  | .node n => tryRead (·.parent? n)
  | _ => throw (.notANode (← read (·.typeName v)))

end Edit

end SheetLint
