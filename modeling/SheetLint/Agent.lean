import SheetLint.Linter.Class
import SheetLint.Node

/-!
# Agents

The things that work on trees or say how to: linters, stand-ins for linters, and settings. Like
nodes they are shared, can change, and take attributes that their class does not declare, which may
hide a method of theirs. Nothing about the parts of an agent is certain but its class: all of them
can be overwritten.

No agent refers to a parent by itself. Once something is written to it in the place where nodes have
their reference, it can be attached to a parent as they are. Like a node, an agent can be backed by
a table.
-/

namespace SheetLint

/-- A linter: its class, its settings, which may be null, the list of the lints it recorded, and the
file it is in. -/
structure Linter where
  behaviour : LinterClass
  settings : Value
  lints : Value
  file : Value := .text ""

/-- A stand-in for a linter, which hands out what was prepared. -/
structure StandIn where
  name : Value
  prepared : Value

/-- What an agent is by its class. -/
inductive Role where
  | linter (l : Linter)
  | standIn (s : StandIn)
  /-- Settings: the table they were made from and the parent policy that it names. -/
  | settings (table policy : Value)

/-- An agent. -/
structure Agent where
  role : Role
  /-- Attributes that the class does not declare, by name, in the order in which they were written.
  A reference to a parent has its place among them, but not its value. -/
  notes : List (String × Value) := []
  /-- What it refers to as its parent, if it has a place for that. -/
  parent : Option Backref := none
  /-- The table that backs the agent, if there is one. -/
  backing : Option TableId := none

namespace Role

/-- The name of the class of an agent. -/
def className : Role → String
  | .linter l => l.behaviour.className
  | .standIn _ => "Stub"
  | .settings .. => "ConfigurationLoader"

/-- The parts that an agent keeps to itself, by the names under which they can be read. -/
def parts : Role → List (String × Value)
  | .linter l => [("_config_loader", l.settings), ("_lints", l.lints), ("_filename", l.file)]
  | .standIn s => [("name", s.name), ("prepared", s.prepared)]
  | .settings table policy => [("_config", table), ("_parent_policy", policy)]

/-- Replaces a part, if there is one of that name. -/
def setPart? (r : Role) (name : String) (v : Value) : Option Role :=
  match r, name with
  | .linter l, "_config_loader" => some (.linter { l with settings := v })
  | .linter l, "_lints" => some (.linter { l with lints := v })
  | .linter l, "_filename" => some (.linter { l with file := v })
  | .standIn s, "name" => some (.standIn { s with name := v })
  | .standIn s, "prepared" => some (.standIn { s with prepared := v })
  | .settings _ policy, "_config" => some (.settings v policy)
  | .settings table _, "_parent_policy" => some (.settings table v)
  | _, _ => none

/-- What an agent's class says of all its agents. -/
def shared : Role → List (String × Value)
  | .linter l => [("name", l.behaviour.name), ("severity", .severity l.behaviour.severity)]
  | _ => []

/-- What an agent computes and what therefore cannot be written. -/
def computed : Role → List String
  | .linter _ => ["lints", "parent_policy"]
  | .standIn _ => []
  | .settings .. => ["config", "parent_policy"]

/-- The methods of an agent. -/
def methods : Role → List String
  | .linter l =>
    ["__init__", "__repr__", "__init_subclass__", "get_severity", "run", "visit", "visit_children",
     "add_lint"] ++ l.behaviour.visits.map fun e => "visit_" ++ e.1
  | .standIn _ => ["__init__", "__repr__", "run"]
  | .settings .. =>
    ["__init__", "linter_config", "is_linter_enabled", "linter_severity", "_resolve_parent_policy"]

end Role

namespace Agent

/-- The name of the class of an agent. -/
def className (a : Agent) : String := a.role.className

/-- Everything an agent holds. -/
def held (a : Agent) : List Value :=
  a.role.parts.map (·.2) ++ a.role.shared.map (·.2) ++ a.notes.map (·.2) ++
    a.parent.elim [] Backref.held ++ a.backing.toList.map .table

/-- What can be read under a name without computing anything: what was written comes before what the
class says. -/
def own? (a : Agent) (name : String) : Option Value :=
  a.role.parts.lookup name <|> a.notes.lookup name <|> a.role.shared.lookup name

/-- Writes under a name. -/
def write (a : Agent) (name : String) (v : Value) : Agent :=
  match a.role.setPart? name v with
  | some role => { a with role }
  | none =>
    if name == Backref.name then
      { a with parent := some (.ofValue v), notes := Entries.put (· == ·) name .null a.notes }
    else { a with notes := Entries.put (· == ·) name v a.notes }

end Agent

end SheetLint
