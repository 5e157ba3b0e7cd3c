import SheetLint.Members
import SheetLint.Store.Backing
import SheetLint.Store.Equality
import SheetLint.Store.Picture

/-!
# Attributes

Reading and assigning what a value has under a name. Nodes and agents can be assigned to, also under
names their class does not declare; locations and lints never change, and plain values have nothing
that could. What was written hides what the class says, except where the class computes. A node or
agent that is backed by a table has its attributes written there.
-/

namespace SheetLint

namespace Store

/-- The fault of calling a method that a value of this type has no use for, given what it has under
the name of the method. -/
def callFault (s : Store) (v : Value) (name : String) : Except Fault Value → Fault
  | .error fault => fault
  | .ok (.foreign _) => .missingAttribute (s.typeName v) name
  | .ok w => .notCallable (s.typeName w)

/-- A variable's name with dashes written as underscores: the two are the same character in
names. A name that is no text is asked for a method of texts. -/
def underscored (s : Store) (ask : Value → String → Except Fault Value) (name : Value) :
    Except Fault Value :=
  match name with
  | .text t => .ok (.text (String.ofList (t.toList.map fun c => if c == '-' then '_' else c)))
  | _ => .error (s.callFault name "replace" (ask name "replace"))

/-- What something has under a name, or the fault of its having nothing there. -/
def orMissing (s : Store) (v : Value) (name : String) (found : Option Value) : Except Fault Value :=
  match found with
  | some (.missing owner lost) => .error (.missingAttribute owner lost)
  | some w => .ok w
  | none => .error (.missingAttribute (s.typeName v) name)

/-- What refers to a parent, or could. -/
def backrefs (s : Store) : List Backref :=
  s.nodes.toList.filterMap (·.map Node.parent) ++ s.agents.toList.filterMap Agent.parent

/-- Whether something refers to a value as its parent. -/
def isReferredTo (s : Store) (v : Value) : Bool :=
  s.backrefs.any fun r =>
    match r with
    | .to p => p.identical v
    | _ => false

/-- Whether anything refers to a value, as a value. -/
def referrers (s : Store) (v : Value) : Value :=
  if s.isReferredTo v then .foreign "ReferenceType" else .null

/-- What a node has under a name, given how to read an attribute of a variable's name. Its reference
to a parent cannot be looked into. -/
def nodeAttribute (s : Store) (ask : Value → String → Except Fault Value) (n : NodeId)
    (name : String) : Except Fault Value :=
  let x := s.node n
  match name, x.form with
  | "parent", _ => (s.parent? n).map (·.getD .null)
  | "underscored_name", .expression (.variable v) => s.underscored ask v
  | "kind", _ => .ok x.kind
  | "is_expression", _ => .ok x.expressionMark
  | "_parent_ref", _ => .ok x.parent.value
  | "__weakref__", _ => .ok (s.referrers (.node n))
  | "__class__", _ => .ok (.foreign "type")
  | _, _ =>
    s.orMissing (.node n) name
      ((x.fields.lookup name <|> x.notes.lookup name) <|> Members.node? x.nodeClass name)

/-- What an agent has under a name, given how to read an attribute of its settings. A linter without
settings refreshes parents. -/
def agentAttribute (s : Store) (ask : Value → String → Except Fault Value) (i : AgentId)
    (name : String) : Except Fault Value :=
  match s.agent? i with
  | none => .error (.missingAttribute (s.agentClass i) name)
  | some a =>
    match name, a.role with
    | "parent_policy", .linter l =>
      if l.settings.isNull then .ok (.policy .refresh) else ask l.settings name
    | "parent_policy", .settings _ policy => s.orMissing (.agent i) name policy
    | "__weakref__", _ => .ok (s.referrers (.agent i))
    | "__class__", _ => .ok (.foreign "type")
    | "_parent_ref", _ => s.orMissing (.agent i) name (a.parent.map Backref.value)
    | _, _ => s.orMissing (.agent i) name (a.own? name <|> Members.agent? a.role name)

/-- What a value has under a name, where at most `chain` things are asked one after the other. -/
def attributeAlong (s : Store) : (chain : Nat) → Value → String → Except Fault Value
  | 0, _, _ => .error .tooDeep
  | chain + 1, v, name =>
    match v with
    | .node n => s.nodeAttribute (s.attributeAlong chain) n name
    | .agent i => s.agentAttribute (s.attributeAlong chain) i name
    | .location _ l c n =>
      let found := [("line", l), ("column", c), ("length", n),
        ("__weakref__", s.referrers v)].lookup name
      s.orMissing v name (found <|> Members.location? name)
    | .lint _ source file loc description severity fixable =>
      let found := [("linter", source), ("filename", file), ("location", loc),
        ("description", description), ("severity", severity),
        ("autocorrect", if fixable then Members.correction else .null),
        ("__weakref__", s.referrers v)].lookup name
      s.orMissing v name (found <|> Members.lint? name)
    | .severity x =>
      s.orMissing v name
        ([("value", .text x.word), ("name", .text x.word.toUpper)].lookup name <|>
          Members.common? name)
    | .policy p =>
      s.orMissing v name
        ([("value", .text p.word), ("name", .text p.word.toUpper)].lookup name <|>
          Members.common? name)
    | .missing owner lost => .error (.missingAttribute owner lost)
    | _ => s.orMissing v name (Members.numberPart? v name <|> Members.plain? v name)

/-- What a value has under a name. Settings may be looked up in a chain of all agents, and the name
of a variable is looked into once. -/
def getAttribute (s : Store) (v : Value) (name : String) : Except Fault Value :=
  s.attributeAlong (s.agents.size + 2) v name

/-- Fails unless a value has a method of a name that can be called: it may be missing, and it may be
hidden by something that is no method. -/
def checkMethod (s : Store) (v : Value) (name : String) : Except Fault Unit :=
  match s.getAttribute v name with
  | .error fault => .error fault
  | .ok (.foreign _) => .ok ()
  | .ok w => .error (.notCallable (s.typeName w))

/-- What was written to a value under names that its class does not declare. -/
def notes (s : Store) : Value → List (String × Value)
  | .node n => (s.node n).notes
  | .agent i => (s.agent? i).elim [] Agent.notes
  | _ => []

/-- Fails if something was written to a value in place of a method of its class. -/
def callable (s : Store) (v : Value) (method : String) : Except Fault Unit :=
  match (s.notes v).lookup method with
  | none => .ok ()
  | some w => .error (.notCallable (s.typeName w))

/-- The fault of calling a method that a value of this type has no use for. -/
def methodFault (s : Store) (v : Value) (name : String) : Fault :=
  s.callFault v name (s.getAttribute v name)

/-- The class that gave a node or an agent the ability to be referred to. -/
def referableClass (s : Store) : Value → String
  | .node _ => NodeClass.bare.name
  | .agent i =>
    match s.agent? i with
    | some { role := .linter _, .. } => LinterClass.base.className
    | _ => s.agentClass i
  | v => s.typeName v

/-- Attributes of nodes and agents that can only be replaced by something of the right sort. -/
def specialFault? (s : Store) (v : Value) (name : String) (new : Value) : Option Fault :=
  match name with
  | "__class__" => some (.noClass (s.typeName new))
  | "__dict__" => if (s.table? new).isSome then none else some (.noAttributes (s.typeName new))
  | "__weakref__" => some (.notWritable name (s.referableClass v))
  | _ => none

/-- Writes an attribute to a node. -/
def setNodeAttribute (s : Store) (n : NodeId) (name : String) (new : Value) :
    Except Fault Store :=
  let x := s.node n
  if name == "parent" || (name == "underscored_name" && x.nodeClass == .variable) then
    .error (.noSetter name x.nodeClass.name)
  else
    match s.specialFault? (.node n) name new, name, new, x.backing with
    | some fault, _, _, _ => .error fault
    | none, "__dict__", .table t, _ => .ok (s.backNode n t)
    | none, _, _, some t => .ok (s.writeEntry t name new)
    | none, _, _, none => .ok (s.setNode n (x.write name new))

/-- Writes an attribute to an agent. What an agent computes cannot be written. -/
def setAgentAttribute (s : Store) (i : AgentId) (name : String) (new : Value) :
    Except Fault Store :=
  match s.agent? i with
  | none => .error (.missingAttribute (s.agentClass i) name)
  | some a =>
    if a.role.computed.contains name then .error (.noSetter name a.className)
    else
      match s.specialFault? (.agent i) name new, name, new, a.backing with
      | some fault, _, _, _ => .error fault
      | none, "__dict__", .table t, _ => .ok (s.backAgent i t)
      | none, _, _, some t => .ok (s.writeEntry t name new)
      | none, _, _, none => .ok (s.setAgent i (a.write name new))

/-- The fault of writing an attribute to a plain value. -/
def plainFault (s : Store) (v : Value) (name : String) (new : Value) : Fault :=
  if name == "__class__" then .noClass (s.typeName new)
  else if (Members.numberPart? v name).isSome then .notWritable name (Members.partType v)
  else if (Members.plain? v name).isSome then .readOnly (s.typeName v) name
  else .missingAttribute (s.typeName v) name

/-- Assigns an attribute. -/
def setAttribute (s : Store) (v : Value) (name : String) (new : Value) : Except Fault Store :=
  match v with
  | .node n => s.setNodeAttribute n name new
  | .agent i => s.setAgentAttribute i name new
  | .location .. => .error (.frozen (Text.quoted name))
  | .lint .. => .error (.frozen (Text.quoted name))
  | _ => .error (s.plainFault v name new)

end Store

end SheetLint
