import SheetLint.Agent
import SheetLint.Fault
import SheetLint.Message
import SheetLint.Node

/-!
# The store

Nodes, lists, tables and agents live in a store and are named by their place in it, so that they can
be shared and can change. A place is never used again: a cleared one stays empty. The store also
knows which marks are taken and what was logged.

`Edit` is a change of the store that may fail; a failure keeps what was changed before it.
-/

namespace SheetLint

/-- What is known to be in use: the values that lead to all that was kept when a store was last
cleared, and how many things of each sort there were then. What came later is in use as well. -/
structure Baseline where
  values : List Value := []
  nodes : Nat := 0
  lists : Nat := 0
  tables : Nat := 0
  agents : Nat := 0
  marks : Nat := 0
  /-- What the tables that back something stood for as references to a parent. -/
  references : List (TableId × Backref) := []
  deriving Inhabited

/-- The nodes, lists, tables and agents of a session, and its log. -/
structure Store where
  nodes : Array (Option Node) := #[]
  lists : Array (List Value) := #[]
  tables : Array Table := #[]
  agents : Array Agent := #[]
  /-- All marks below this one are taken. -/
  marks : Nat := 0
  /-- Whether a table ever took the place of the attributes of a node or agent. Before that nothing
  is backed and no attribute lost. -/
  hasBacked : Bool := false
  /-- What was in use when the store was last cleared. -/
  baseline : Baseline := {}
  log : List Message := []
  deriving Inhabited

/-- A change of the store that gives a result or fails. -/
abbrev Edit := ExceptT Fault (StateM Store)

namespace Store

/-- The node at a place, unless it is cleared. -/
def node? (s : Store) (n : NodeId) : Option Node :=
  (s.nodes[n]?).join

/-- The node at a place; a cleared place counts as a bare node without a location. -/
def node (s : Store) (n : NodeId) : Node :=
  (s.node? n).getD {}

/-- The name of an agent's class; where there is none, nothing is there. -/
def agentClass (s : Store) (i : AgentId) : String :=
  (s.agents[i]?).elim "NoneType" Agent.className

/-- The name of a value's type. -/
def typeName (s : Store) : Value → String
  | .null => "NoneType"
  | .bool _ => "bool"
  | .int _ => "int"
  | .float .. => "float"
  | .text _ => "str"
  | .list _ => "list"
  | .tuple .. => "tuple"
  | .table _ => "dict"
  | .node n => (s.node n).nodeClass.name
  | .location .. => "Location"
  | .lint .. => "Lint"
  | .agent i => s.agentClass i
  | .severity _ => "Severity"
  | .policy _ => "ParentPolicy"
  | .foreign type => type
  | .missing owner _ => owner

/-- The live parent that is referred to. What was written in place of a reference cannot be
followed. -/
def referent (s : Store) : Backref → Except Fault (Option Value)
  | .none => .ok none
  | .gone => .ok none
  | .to p => .ok (some p)
  | .other v => .error (.notCallable (s.typeName v))

/-- The live parent of a node. -/
def parent? (s : Store) (n : NodeId) : Except Fault (Option Value) :=
  s.referent (s.node n).parent

/-- Puts a node at a place that exists. -/
def setNode (s : Store) (n : NodeId) (x : Node) : Store :=
  { s with nodes := s.nodes.setIfInBounds n (some x) }

/-- The store with a new node, at the place that is next. -/
def addNode (s : Store) (x : Node) : Store :=
  { s with nodes := s.nodes.push (some x) }

/-- The place the next node gets. -/
def nextNode (s : Store) : NodeId := s.nodes.size

/-- The items of a list. -/
def list (s : Store) (l : ListId) : List Value :=
  (s.lists[l]?).getD []

/-- Replaces the items of a list. -/
def setList (s : Store) (l : ListId) (items : List Value) : Store :=
  { s with lists := s.lists.setIfInBounds l items }

/-- The store with a new list, at the place that is next. -/
def addList (s : Store) (items : List Value) : Store :=
  { s with lists := s.lists.push items }

/-- The place the next list gets. -/
def nextList (s : Store) : ListId := s.lists.size

/-- The entries of a table. -/
def table (s : Store) (t : TableId) : Table :=
  (s.tables[t]?).getD []

/-- Replaces the entries of a table. -/
def setTable (s : Store) (t : TableId) (entries : Table) : Store :=
  { s with tables := s.tables.setIfInBounds t entries }

/-- The store with a new table, at the place that is next. -/
def addTable (s : Store) (entries : Table) : Store :=
  { s with tables := s.tables.push entries }

/-- The place the next table gets. -/
def nextTable (s : Store) : TableId := s.tables.size

/-- The entries of a value that is a table. -/
def table? (s : Store) : Value → Option Table
  | .table t => some (s.table t)
  | _ => none

/-- The agent at a place. -/
def agent? (s : Store) (i : AgentId) : Option Agent := s.agents[i]?

/-- Replaces an agent. -/
def setAgent (s : Store) (i : AgentId) (a : Agent) : Store :=
  { s with agents := s.agents.setIfInBounds i a }

/-- The store with a new agent, at the place that is next. -/
def addAgent (s : Store) (a : Agent) : Store :=
  { s with agents := s.agents.push a }

/-- The place the next agent gets. -/
def nextAgent (s : Store) : AgentId := s.agents.size

/-- The store with a message logged. -/
def note (s : Store) (m : Message) : Store :=
  { s with log := s.log ++ [m] }

/-- Zero, nothing and what is empty count as false. -/
def truthy (s : Store) : Value → Bool
  | .null => false
  | .bool b => b
  | .int i => i != 0
  | .float x _ => !x.isZero
  | .text t => t != ""
  | .list l => !(s.list l).isEmpty
  | .tuple _ items => !items.isEmpty
  | .table t => !(s.table t).isEmpty
  | _ => true

/-- The items of a value in order: the members of a list or tuple, the characters of a text, the
keys of a table. -/
def items (s : Store) : Value → Except Fault (List Value)
  | .list l => .ok (s.list l)
  | .tuple _ xs => .ok xs
  | .text t => .ok (t.toList.map fun c => .text (String.singleton c))
  | .table t => .ok (s.table t).keys
  | .missing owner name => .error (.missingAttribute owner name)
  | v => .error (.notIterable (s.typeName v))

/-- Whether any node or agent has lost an attribute. -/
def hasMissing (s : Store) : Bool :=
  s.hasBacked &&
    ((s.nodes.any fun n => n.elim false fun x => x.fields.any fun f => f.2.isMissing) ||
      s.agents.any fun a => a.role.parts.any fun p => p.2.isMissing)

/-- A bound on how deep anything in the store is nested, sharing apart. -/
def weight (s : Store) : Nat :=
  s.nodes.foldl (fun w n => w + Value.weightAll (n.elim [] Node.held) + 1) 0 +
    s.lists.foldl (fun w xs => w + Value.weightAll xs + 1) 0 +
    s.agents.foldl (fun w a => w + Value.weightAll a.held + 1) 0 +
    s.tables.foldl (fun w t => w + Value.weightAll t.keys + Value.weightAll t.values + 1) 0

end Store

namespace Edit

/-- What a function of the store gives. -/
def read (f : Store → α) : Edit α := do
  return f (← get)

/-- What a function of the store gives, if it does not fail. -/
def tryRead (f : Store → Except Fault α) : Edit α := do
  match f (← get) with
  | .ok a => return a
  | .error e => throw e

/-- Makes a node. -/
def newNode (x : Node) : Edit NodeId := do
  let s ← get
  set (s.addNode x)
  return s.nextNode

/-- Makes a list. -/
def newList (items : List Value) : Edit ListId := do
  let s ← get
  set (s.addList items)
  return s.nextList

/-- Makes a table. -/
def newTable (entries : Table) : Edit TableId := do
  let s ← get
  set (s.addTable entries)
  return s.nextTable

/-- Makes an agent. -/
def newAgent (role : Role) : Edit AgentId := do
  let s ← get
  set (s.addAgent { role })
  return s.nextAgent

/-- Takes a mark that nothing has yet. -/
def newMark : Edit Nat := do
  let s ← get
  set { s with marks := s.marks + 1 }
  return s.marks

/-- Makes a number. -/
def newFloat (x : Binary64) : Edit Value := do
  return .float x (← newMark)

/-- Makes a tuple. -/
def newTuple (items : List Value) : Edit Value := do
  return .tuple (← newMark) items

/-- Makes a location. -/
def newLocation (line column length : Value) : Edit Value := do
  return .location (← newMark) line column length

/-- Logs a message. -/
def log (m : Message) : Edit Unit :=
  modify (·.note m)

/-- A change of the store that gives nothing. -/
def change (f : Store → Except Fault Store) : Edit Unit := do
  set (← tryRead f)

/-- Runs a change on a store: the outcome and the store afterwards, also after a failure. -/
def perform (e : Edit α) (s : Store) : Except Fault α × Store :=
  (ExceptT.run e).run s

end Edit

end SheetLint
