import SheetLint.Store

/-!
# Attributes kept in a table

A table can take the place of the attributes of a node or agent. From then on it backs them: what it
has at a name is the attribute of that name. An attribute that it lacks is what the class says, and
lost if the class says nothing. Several nodes and agents may be backed by one table.

`Store.writeTable` is the way to change a table that may back something. Walking a tree does not
look at tables: it completes locations and writes parents in the nodes themselves, and
`Store.keepTables` brings that into the tables afterwards.
-/

namespace SheetLint

namespace Backref

/-- The reference that a table has at its name. What is a reference in the table is one that is
already known. -/
def ofEntry (known : Backref) (entry : Option Value) : Backref :=
  match entry with
  | .none => .none
  | some (.foreign _) => known
  | some v => .ofValue v

/-- What a reference looks like from outside. -/
def value : Backref → Value
  | .none => .null
  | .to _ => .foreign "ReferenceType"
  | .gone => .foreign "ReferenceType"
  | .other v => v

/-- Whether two references lead to one parent, or neither leads to any. -/
def agrees : Backref → Backref → Bool
  | .none, .none => true
  | .gone, .gone => true
  | .to p, .to q => p.identical q
  | _, _ => false

end Backref

namespace Table

/-- The value at a name. -/
def attribute? (t : Table) (name : String) : Option Value := t.get? (.text name)

/-- The attributes of a table whose names are not among these. -/
def notesBeside (t : Table) (names : List String) : List (String × Value) :=
  t.filterMap fun e =>
    match e.1 with
    | .text name => if names.contains name then none else some (name, e.2)
    | _ => none

end Table

namespace Node

/-- What a class has for a field that was not given to a node or was taken from it. -/
def fallback (c : NodeClass) (field : String × FieldDefault) : Value :=
  match field.2 with
  | .value v => v
  | _ => .missing c.name field.1

/-- A node with the attributes that a table has. -/
def backedBy (x : Node) (t : Table) : Node :=
  let c := x.nodeClass
  let values := c.info.fields.map fun f => (t.attribute? f.1).getD (fallback c f)
  let part (name : String) : Value := (t.attribute? name).getD .null
  { x with
    position := { line := part "line", column := part "column", file := part "filename" }
    form := (Form.ofFields? c values).getD x.form
    parent := .ofEntry x.parent (t.attribute? Backref.name)
    notes := t.notesBeside (x.fields.map (·.1) ++ [Backref.name]) }

/-- A table with the parts of a node's location that it has no value for. -/
def complete (x : Node) (t : Table) : Table :=
  let parts := [("line", x.position.line), ("column", x.position.column),
    ("filename", x.position.file)]
  parts.foldl (fun es p =>
    if p.2.isNull || !(es.attribute? p.1).elim true Value.isNull then es
    else es.put (.text p.1) p.2) t

end Node

namespace Agent

/-- An agent with the attributes that a table has. -/
def backedBy (a : Agent) (t : Table) : Agent :=
  let role := a.role.parts.foldl (fun r p =>
    (r.setPart? p.1 ((t.attribute? p.1).getD (.missing a.className p.1))).getD r) a.role
  let reference := t.attribute? Backref.name
  { a with
    role
    parent := reference.map fun v => .ofEntry (a.parent.getD .gone) (some v)
    notes := t.notesBeside (a.role.parts.map (·.1) ++ [Backref.name]) }

end Agent

namespace Store

/-- The table that backs a value. -/
def backing? (s : Store) : Value → Option TableId
  | .node n => (s.node n).backing
  | .agent i => (s.agent? i).bind Agent.backing
  | _ => none

/-- Changes everything that a table backs. -/
def mapBacked (s : Store) (t : TableId) (f : Node → Node) (g : Agent → Agent) : Store :=
  if s.hasBacked then
    { s with
      nodes := s.nodes.map (·.map fun x => if x.backing == some t then f x else x)
      agents := s.agents.map fun a => if a.backing == some t then g a else a }
  else s

/-- Gives everything that a table backs the attributes that the table has. -/
def readBacking (s : Store) (t : TableId) : Store :=
  s.mapBacked t (·.backedBy (s.table t)) (·.backedBy (s.table t))

/-- Replaces the entries of a table, and the attributes of what it backs. -/
def writeTable (s : Store) (t : TableId) (entries : Table) : Store :=
  (s.setTable t entries).readBacking t

/-- Where nothing is backed, a table is changed and nothing else. -/
theorem writeTable_of_unbacked {s : Store} (h : s.hasBacked = false) (t : TableId)
    (entries : Table) : s.writeTable t entries = s.setTable t entries := by
  simp [writeTable, readBacking, mapBacked, setTable, h]

/-- Writes an attribute of what a table backs. -/
def writeEntry (s : Store) (t : TableId) (name : String) (v : Value) : Store :=
  s.writeTable t ((s.table t).put (.text name) v)

/-- The references to a parent of what a table backs. -/
def backedReferences (s : Store) (t : TableId) : List Backref :=
  s.nodes.toList.filterMap (fun x => x.bind fun x =>
    if x.backing == some t then some x.parent else none) ++
    s.agents.toList.filterMap fun a => if a.backing == some t then a.parent else none

/-- The reference to a parent that a table stands for: that of something it backs. -/
def backedReference (s : Store) (t : TableId) : Backref :=
  ((s.backedReferences t).find? Backref.isSet).getD .gone

/-- Lets a table take the place of the attributes of a node. -/
def backNode (s : Store) (n : NodeId) (t : TableId) : Store :=
  let x := { s.node n with parent := s.backedReference t, backing := some t }
  { s.setNode n (x.backedBy (s.table t)) with hasBacked := true }

/-- Lets a table take the place of the attributes of an agent. -/
def backAgent (s : Store) (i : AgentId) (t : TableId) : Store :=
  match s.agent? i with
  | none => s
  | some a =>
    let x := { a with parent := some (s.backedReference t), backing := some t }
    { s.setAgent i (x.backedBy (s.table t)) with hasBacked := true }

/-- The tables that back something, each once. -/
def backingTables (s : Store) : List TableId :=
  if s.hasBacked then
    (s.nodes.toList.filterMap (fun x => x.bind Node.backing) ++
      s.agents.toList.filterMap Agent.backing).eraseDups
  else []

/-- The entries of a table with the locations that were completed in the nodes that it backs. -/
def completedTable (s : Store) (t : TableId) : Table :=
  s.nodes.toList.foldl (fun entries x =>
    match x with
    | none => entries
    | some x => if x.backing == some t then x.complete entries else entries) (s.table t)

/-- The reference to a parent that something backed by a table got since the last collection. -/
def newReference? (s : Store) (t : TableId) : Option Backref :=
  let before := (s.baseline.references.lookup t).getD .none
  (s.backedReferences t).find? fun r => r.isSet && !r.agrees before

/-- Brings what was done to the nodes and agents that a table backs into the table. -/
def keepTable (s : Store) (t : TableId) : Store :=
  let entries := s.completedTable t
  match s.newReference? t with
  | none => s.writeTable t entries
  | some r =>
    let attached := s.mapBacked t ({ · with parent := r }) ({ · with parent := some r })
    attached.writeTable t (entries.put (.text Backref.name) r.value)

/-- Brings what was done to nodes and agents into the tables that back them. -/
def keepTables (s : Store) : Store :=
  s.backingTables.foldl keepTable s

/-- Where nothing is backed, no table has to be brought up to date. -/
theorem keepTables_of_unbacked {s : Store} (h : s.hasBacked = false) : s.keepTables = s := by
  simp [keepTables, backingTables, h]

end Store

end SheetLint
