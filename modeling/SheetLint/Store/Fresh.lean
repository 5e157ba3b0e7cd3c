import SheetLint.Store.Item

/-!
# Attributes made anew

Some attributes are no values that are there but are made each time they are read, so that changing
what was read changes nothing else: the lints of a linter, the table of settings, and lists of what
a value has.
-/

namespace SheetLint

/-- What is made anew each time it is read. -/
inductive Fresh where
  | list (items : List Value)
  | tuple (items : List Value)
  | table (entries : Table)

namespace Fresh

/-- Names and what stands for them, as a table. -/
def ofNamed (entries : List (String × Value)) : Fresh :=
  .table (entries.map fun e => (.text e.1, e.2))

/-- Names, in a row that never changes. -/
def names (ns : List String) : Fresh := .tuple (ns.map .text)

/-- Names of fields with what describes them. -/
def descriptions (ns : List String) : Fresh := ofNamed (ns.map fun n => (n, .foreign "Field"))

end Fresh

namespace Store

/-- Names with the sorts of things that are expected there. -/
def sorts (entries : List (String × String)) : List (String × Value) :=
  entries.map fun e => (e.1, .text e.2)

/-- The sorts of things that a location is made of. -/
def locationSorts : List (String × Value) :=
  sorts [("line", "int"), ("column", "int"), ("length", "int")]

/-- The sorts of things that a lint is made of. All but the first are known and not only named. -/
def lintSorts : List (String × Value) :=
  [("linter", .text "LinterProtocol"), ("filename", .foreign "type"),
   ("location", .foreign "type"), ("description", .foreign "type"),
   ("severity", .foreign "EnumType"), ("autocorrect", .foreign "_UnionGenericAlias")]

/-- The sorts of things that all linters share. -/
def linterSorts : List (String × Value) :=
  sorts [("name", "ClassVar[str]"), ("severity", "ClassVar[Severity]")]

/-- The names of a node's fields in the order in which they are given. -/
def fieldOrder (x : Node) : List String := x.fields.map (·.1)

/-- Notes with a reference to a parent in its place. -/
def shownNotes (reference : Backref) (notes : List (String × Value)) : List (String × Value) :=
  notes.map fun e => if e.1 == Backref.name then (e.1, reference.value) else e

/-- The attributes that were given or written to a node. -/
def nodeEntries (x : Node) : List (String × Value) :=
  x.fields ++ shownNotes x.parent x.placed.notes

/-- What a node makes anew. What was written to it comes before what its class says of fields. -/
def nodeFresh? (x : Node) (name : String) : Option Fresh :=
  match name, x.notes.lookup name with
  | "__dict__", _ => some (.ofNamed (nodeEntries x))
  | "__match_args__", none => some (.names (fieldOrder x))
  | "__annotations__", none =>
    some (.ofNamed (sorts (x.nodeClass.listedSorts NodeClass.maxDepth)))
  | "__dataclass_fields__", none =>
    let (location, own) := (fieldOrder x).splitAt 3
    some (.descriptions (["kind", "is_expression"] ++ location ++ ["_parent_ref"] ++ own))
  | _, _ => none

/-- What a value of fixed parts makes anew, given the sorts of its parts. -/
def partsFresh? (parts sorts : List (String × Value)) (name : String) : Option Fresh :=
  match name with
  | "__annotations__" => some (.ofNamed sorts)
  | "__match_args__" => some (.names (parts.map (·.1)))
  | "__dict__" => some (.ofNamed parts)
  | "__dataclass_fields__" => some (.descriptions (parts.map (·.1)))
  | _ => none

/-- What an agent makes anew: a linter a copy of its lints, settings a copy of their table. -/
def agentFresh? (s : Store) (a : Agent) (name : String) : Option (Except Fault Fresh) :=
  match name, a.role with
  | "lints", .linter l => some ((s.items l.lints).map .list)
  | "__annotations__", .linter _ =>
    if (a.notes.lookup name).isSome then none else some (.ok (.ofNamed linterSorts))
  | "config", .settings table _ => some ((s.copiedEntries table).map .table)
  | "__dict__", r =>
    some (.ok (.ofNamed (r.parts ++ shownNotes (a.parent.getD .none) a.notes)))
  | _, _ => none

/-- What a value makes anew under a name. -/
def fresh? (s : Store) (v : Value) (name : String) : Option (Except Fault Fresh) :=
  match v with
  | .node n => (nodeFresh? (s.node n) name).map .ok
  | .agent i => (s.agent? i).bind fun a => s.agentFresh? a name
  | .location _ l c n =>
    (partsFresh? [("line", l), ("column", c), ("length", n)] locationSorts name).map .ok
  | .lint _ source file loc description severity fixable =>
    (partsFresh? [("linter", source), ("filename", file), ("location", loc),
      ("description", description), ("severity", severity),
      ("autocorrect", if fixable then Members.correction else .null)] lintSorts name).map .ok
  | _ => none

end Store

namespace Edit

/-- Makes what is made anew. -/
def newFresh : Fresh → Edit Value
  | .list items => return .list (← newList items)
  | .tuple items => newTuple items
  | .table entries => return .table (← newTable entries)

/-- What a value has under a name. The attributes of what a table backs are that table. -/
def attributeOf (v : Value) (name : String) : Edit Value := do
  let s ← get
  match name, s.backing? v, s.fresh? v name with
  | "__dict__", some t, _ => return .table t
  | _, _, some found => newFresh (← tryRead fun _ => found)
  | _, _, none => tryRead (·.getAttribute v name)

end Edit

end SheetLint
