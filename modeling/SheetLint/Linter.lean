import SheetLint.Lint
import SheetLint.Settings
import SheetLint.Store.Reach
import SheetLint.Tree.Walk

/-!
# Linters at work

A linter visits a tree from its root. At a node whose kind its class mentions it does what the
class says; at any other it goes on to the children. The lints it records are kept in order, also
when a visit fails. A new run forgets the lints of the one before.

A linter works through its own methods, so what is written in place of one of them is found when it
is called, and not before.
-/

namespace SheetLint

namespace Store

/-- The linter at a place, if one is there. -/
def linter? (s : Store) (i : AgentId) : Option Linter :=
  match s.agent? i with
  | some { role := .linter l, .. } => some l
  | _ => none

/-- The place of the linter that a method is called on. -/
def linterOf (s : Store) (v : Value) (method : String) : Except Fault AgentId :=
  match s.checkMethod v method, v with
  | .error fault, _ => .error fault
  | .ok _, .agent i =>
    if (s.linter? i).isSome then .ok i else .error (s.methodFault v method)
  | .ok _, _ => .error (s.methodFault v method)

/-- The settings of a linter; null if it has none. -/
def settingsOf (s : Store) (i : AgentId) : Except Fault Value :=
  s.orMissing (.agent i) "_config_loader" ((s.linter? i).map Linter.settings)

/-- The list of the lints of a linter. -/
def lintsOf (s : Store) (i : AgentId) : Value :=
  (s.linter? i).elim .null Linter.lints

/-- The file that a linter is in. -/
def fileOf (s : Store) (i : AgentId) : Except Fault Value :=
  s.orMissing (.agent i) "_filename" ((s.linter? i).map Linter.file)

/-- What a new run of a linter replaces: its lints and its file. -/
def runParts (s : Store) (i : AgentId) : List Value :=
  (s.linter? i).elim [] fun l => [l.lints, l.file]

/-- What the class of a linter does at nodes of a kind. -/
def visitOf? (s : Store) (i : AgentId) (kind : String) : Option (List Action) :=
  (s.linter? i).bind fun l => l.behaviour.visit? kind

/-- What the class of a linter does instead of going on to the children. -/
def descentOf? (s : Store) (i : AgentId) : Option (List Action) :=
  (s.linter? i).bind fun l => l.behaviour.descent?

/-- Puts a value at the end of a list. -/
def append (s : Store) (list v : Value) : Except Fault Store :=
  match list with
  | .list l => .ok (s.setList l (s.list l ++ [v]))
  | _ => .error (s.methodFault list "append")

end Store

namespace Linter

/-- The policy a linter attaches children under. -/
def policy (i : AgentId) : Edit ParentPolicy := do
  match ← Edit.tryRead (·.getAttribute (.agent i) "parent_policy") with
  | .policy p => return p
  | _ => return .refresh

/-- How serious the lints of a linter are: its settings come before its own severity. -/
def severity (i : AgentId) : Edit Value := do
  Edit.tryRead (·.callable (.agent i) "get_severity")
  let settings ← Edit.tryRead (·.settingsOf i)
  let own ← Edit.tryRead (·.getAttribute (.agent i) "severity")
  if settings.isNull then return own
  else Edit.severity settings (← Edit.tryRead (·.getAttribute (.agent i) "name")) own

/-- The place of a lint: a location as it is, anything else by its line and column. -/
def place (v : Value) : Edit Value := do
  match v with
  | .location .. => return v
  | _ => Edit.locationOf v (.int 1)

/-- Records a lint at a value. -/
def record (i : AgentId) (v description : Value) (fixable : Bool) : Edit Value := do
  Edit.tryRead (·.callable (.agent i) "add_lint")
  let location ← place v
  let file ← Edit.tryRead (·.fileOf i)
  let lint ← Edit.newLint (.agent i) file location description (← severity i) fixable
  Edit.change fun s => s.append (s.lintsOf i) lint
  return lint

/-- The traversal children of a value, which has to be a node, under a linter's policy. -/
def childrenOf (i : AgentId) (v : Value) : Edit (List NodeId) := do
  let _ ← Edit.tryRead (·.getAttribute v "traversal_children")
  let p ← policy i
  Edit.onNode v "traversal_children" fun n => Edit.children n p

/-- Visits the traversal children of a value, given how to visit one. -/
def visitChildren (i : AgentId) (visit : Value → Edit Unit) (v : Value) : Edit Unit := do
  let cs ← childrenOf i v
  cs.forM fun c => visit (.node c)

/-- Whether nodes equal an earlier one among them, in order. -/
def repeats (s : Store) (nodes : List NodeId) : List (NodeId × Except Fault Bool) :=
  let depth := s.depthAmong (nodes.map .node)
  nodes.zipIdx.map fun (n, k) => (n, s.isAmong depth (.node n) ((nodes.take k).map .node))

/-- Records a lint at each of these nodes that equals an earlier one. -/
def recordDuplicates (i : AgentId) (nodes : List NodeId) : Edit Unit := do
  let s ← get
  (repeats s nodes).forM fun (n, isRepeat) => do
    if ← Edit.tryRead fun _ => isRepeat then
      let _ ← record i (.node n) (.text "duplicate") false

mutual

/-- Does one action at a value, given how to go on to its children. -/
def act (i : AgentId) (descend : Value → Edit Unit) (v : Value) : Action → Edit Unit
  | .lint description place fixable => do
    let target ← match place with
      | none => pure v
      | some parts => Edit.locationOfItems parts
    let _ ← record i target description fixable
  | .descend => descend v
  | .whenAttribute name expected body => do
    let found ← Edit.attributeOf v name
    let wanted ← Edit.tryRead fun _ => expected
    if ← Edit.read (·.same found wanted) then actAll i descend v body
  | .whenParent kind body => do
    let parent ← Edit.tryRead (·.getAttribute v "parent")
    if !parent.isNull then
      let found ← Edit.tryRead (·.getAttribute parent "kind")
      if ← Edit.read (·.same found kind) then actAll i descend v body
  | .duplicates among => do
    let cs ← childrenOf i v
    let s ← get
    recordDuplicates i (cs.filter fun c => (s.node c).nodeClass.derives among)
  | .fail fault => throw fault

def actAll (i : AgentId) (descend : Value → Edit Unit) (v : Value) : List Action → Edit Unit
  | [] => return
  | a :: rest => do
    act i descend v a
    actAll i descend v rest

end

/-- How much deeper than a tree without a cycle a visit may go. One that comes back to a node can
still end there, if a test of its parent has a different outcome the second time. -/
def slack : Nat := 1000

/-- Goes on below a value, given how to visit one: to its children, unless the class says what to
do instead. To go on is then to do that once more, at most `rounds` times. -/
def descendTo (i : AgentId) (visit : Value → Edit Unit) : (rounds : Nat) → Value → Edit Unit
  | 0, _ => throw .tooDeep
  | r + 1, v => do
    Edit.tryRead (·.callable (.agent i) "visit_children")
    match ← Edit.read (·.descentOf? i) with
    | none => visitChildren i visit v
    | some actions => actAll i (descendTo i visit r) v actions

/-- Goes on below a value, given how to visit one. -/
def descend (i : AgentId) (visit : Value → Edit Unit) (v : Value) : Edit Unit :=
  descendTo i visit slack v

/-- Visits a value to a depth of `depth`. Something written to the linter under the name of a visit
counts before what the class does at the kind, and nothing there counts as no visit. -/
def visitTo (i : AgentId) : (depth : Nat) → Value → Edit Unit
  | 0, _ => throw .tooDeep
  | d + 1, v => do
    Edit.tryRead (·.callable (.agent i) "visit")
    let kind ← Edit.tryRead (·.kindOf v)
    let s ← get
    match (s.notes (.agent i)).lookup ("visit_" ++ kind), s.visitOf? i kind with
    | some .null, _ => descend i (visitTo i d) v
    | some w, _ => throw (.notCallable (s.typeName w))
    | none, none => descend i (visitTo i d) v
    | none, some actions => actAll i (descend i (visitTo i d)) v actions

/-- No path without a cycle has more nodes than the store, and at its end perhaps a variable that
was made on the way. -/
def depth (s : Store) : Nat := s.nodes.size + 2 + slack

/-- Visits a value. -/
def visit (i : AgentId) (v : Value) : Edit Unit := do
  visitTo i (depth (← get)) v

/-- Visits what is below a value. -/
def visitBelow (i : AgentId) (v : Value) : Edit Unit := do
  descend i (visitTo i (depth (← get))) v

/-- The lints recorded by a linter, in order. -/
def recorded (i : AgentId) : Edit (List Value) :=
  Edit.tryRead fun s => s.items (s.lintsOf i)

/-- Makes a linter forget its lints and turn to a file. What only the lints or the file before led
to is gone. -/
def reset (i : AgentId) (file : Value) : Edit Unit := do
  let before ← Edit.read (·.runParts i)
  let list ← Edit.newList []
  Edit.change fun s => s.setAttribute (.agent i) "_lints" (.list list)
  Edit.change fun s => s.setAttribute (.agent i) "_filename" file
  modify (·.release before)

/-- Runs a linter over a tree in a file, from a clean slate: the lints it finds. -/
def run (i : AgentId) (root file : Value) : Edit (List Value) := do
  reset i file
  visit i root
  recorded i

/-- Makes a linter of a class, with settings, which may be null. -/
def make (behaviour : LinterClass) (settings : Value) : Edit Value := do
  let lints ← Edit.newList []
  return .agent (← Edit.newAgent (.linter { behaviour, settings, lints := .list lints }))

end Linter

namespace StandIn

/-- Makes a stand-in for a linter. -/
def make (name : Value) : Edit Value := do
  let prepared ← Edit.newList []
  return .agent (← Edit.newAgent (.standIn { name, prepared := .list prepared }))

end StandIn

end SheetLint
