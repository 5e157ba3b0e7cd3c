import SheetLint.Tree.Backfill
import SheetLint.Tree.Flatten
import SheetLint.Tree.Parent

/-!
# Traversal children

The traversal children of a node are the nodes a linter looks at below it: first the structural
children, which the parser models as such, then the expressions embedded in the statement's own
parts, in a fixed order for each form. Bare names of loop variables and keywords become variables.
Each child gets its missing location and its parent reference when its container is asked for it.
-/

namespace SheetLint

/-- One of the structural children of a node as it is listed: a value, or several in a list of their
own. -/
inductive Operand where
  | single (v : Value)
  | group (vs : List Value)

namespace Operand

/-- The values of an operand, in order. -/
def values : Operand → List Value
  | .single v => [v]
  | .group vs => vs

end Operand

namespace Store

/-- The members of a mix of plain text and expressions that are expressions. Nothing has none. -/
def scripts (s : Store) (v : Value) : Except Fault (List NodeId) :=
  match v with
  | .null => .ok []
  | _ => (s.items v).map fun xs => xs.filterMap fun x =>
      match x with
      | .node n => if (s.node n).isScript then some n else none
      | _ => none

/-- The entries of keyword arguments; `wanted` is how they were asked for. -/
def keywords (s : Store) (v : Value) (wanted : String) : Except Fault Table :=
  match v with
  | .table t => .ok (s.table t)
  | _ => .error (s.methodFault v wanted)

/-- The structural children of an expression: its operands in order. -/
def operands (s : Store) : Expression → Except Fault (List Operand)
  | .script => .ok []
  | .variable _ => .ok []
  | .literal _ => .ok []
  | .stringInterpolation before mid after => .ok ([before, mid, after].map .single)
  | .interpolation before mid after _ _ => .ok ([before, mid, after].map .single)
  | .funcall _ args keywords splat keywordSplat =>
    match lost? args, s.keywords keywords "values" with
    | some fault, _ => .error fault
    | none, found => found.map fun t =>
      [.single args, .group t.values, .single splat, .single keywordSplat]
  | .list elements _ => (s.items elements).map (·.map .single)
  | .map pairs => (s.items pairs).map (·.map .single)
  | .operation left _ right => .ok ([left, right].map .single)
  | .unary _ operand => .ok [.single operand]

/-- The structural children that a form has. -/
def structuralIn (s : Store) : Form → Except Fault (List Operand)
  | .bare => .ok []
  | .expression e => s.operands e
  | .statement children _ => (s.items children).map (·.map .single)

/-- The structural children of a node. -/
def structural (s : Store) (n : NodeId) : Except Fault (List Operand) :=
  match s.callable (.node n) "structural_children" with
  | .error fault => .error fault
  | .ok _ => s.structuralIn (s.node n).form

/-- The structural children of a node, flattened. -/
def base (s : Store) (n : NodeId) : Except Fault (List NodeId) :=
  match s.structural n with
  | .error fault => .error fault
  | .ok ops => s.flattenAll (ops.flatMap Operand.values)

end Store

namespace Statement

/-- The value that a generic directive's grammar defines; other directives define none. -/
def directiveValue? : Statement → Option Value
  | .directive value => some value
  | .media .. => some .null
  | .supports .. => some .null
  | _ => none

end Statement

namespace Edit

/-- What is done to single values and to arguments before the children of a node are listed. -/
structure Early where
  value : Value → Edit Unit
  arguments : Value → Edit Unit

/-- Property values and the names of arguments get their location early. -/
def Early.filling (self : NodeId) : Early where
  value v := fill v (.node self)
  arguments v := fillArguments v (.node self)

/-- Nothing is done early. -/
def Early.nothing : Early where
  value _ := return
  arguments _ := return

/-- One new variable for each name. -/
def newVariables (names : List Value) (self : NodeId) : Edit (List NodeId) :=
  names.mapM fun name => newVariable name (.node self)

/-- A new variable and the expression for each keyword, in order. -/
def keywordPairs (t : Table) (self : NodeId) : Edit (List (NodeId × Value)) :=
  t.mapM fun e => do
    return (← newVariable e.1 (.node self), e.2)

/-- The children of a statement. -/
def collectStatement (early : Early) (self : NodeId) (st : Statement) : Edit (List NodeId) := do
  let base : Edit (List NodeId) := tryRead (·.base self)
  let flat (xs : List Value) : Edit (List NodeId) := tryRead (·.flattenAll xs)
  let scripts (v : Value) : Edit (List NodeId) := tryRead (·.scripts v)
  let valued (v : Value) : Edit (List NodeId) := do
    let before ← base
    tryRead (·.callable (.node self) "directive_value")
    return before ++ (← scripts v)
  match st with
  | .rule selector => return (← base) ++ (← scripts selector)
  | .prop name value =>
    let before ← base
    let names ← scripts name
    early.value value
    return before ++ names ++ (← flat [value])
  | .comment body _ => return (← base) ++ (← scripts body)
  | .carrier _ expr => return (← base) ++ (← flat [expr])
  | .assignment expr _ _ _ => return (← base) ++ (← flat [expr])
  | .ifElse expr otherwise => return (← base) ++ (← flat [expr, otherwise])
  | .each vars list =>
    let names ← tryRead (·.items vars)
    let loopVars ← newVariables names self
    return (← base) ++ loopVars ++ (← flat [list])
  | .forLoop var first last _ =>
    let before ← base
    let loopVar ← newVariable var (.node self)
    return before ++ loopVar :: (← flat [first, last])
  | .callable _ _ args splat =>
    early.arguments args
    return (← base) ++ (← flat [args, splat])
  | .mixinDef _ args splat _ =>
    early.arguments args
    return (← base) ++ (← flat [args, splat])
  | .mixin _ args keywords splat keywordSplat =>
    early.arguments args
    let t ← tryRead (·.keywords keywords "items")
    let pairs ← keywordPairs t self
    let named := pairs.flatMap fun (v, expr) => [.node v, expr]
    return (← base) ++ (← flat (args :: named ++ [splat, keywordSplat]))
  | .extend selector _ => return (← base) ++ (← scripts selector)
  | .directive value => valued value
  | .plain => base
  | .root _ => base
  | .content => base
  | .importSheet _ => base
  | .importCss _ _ => base
  | .charset _ => base
  | .media _ _ => valued .null
  | .supports _ _ _ => valued .null
  | .atRoot _ => base
  | .keyframeRule _ => base

/-- The children of a node, not yet attached to it. -/
def collectWith (early : Early) (self : NodeId) : Edit (List NodeId) := do
  match (← read (·.node self)).form with
  | .statement _ st => collectStatement early self st
  | _ => tryRead (·.base self)

/-- Completes a child's location and attaches it to its container. -/
def adopt (self : NodeId) (policy : ParentPolicy) (child : NodeId) : Edit Unit := do
  modify (·.fill child self)
  attach (.node child) (.node self) policy

/-- The traversal children of a node, given what is done early. -/
def childrenWith (early : Early) (self : NodeId) (policy : ParentPolicy) :
    Edit (List NodeId) := do
  tryRead (·.callable (.node self) "traversal_children")
  tryRead (·.callable (.node self) "_collect_children")
  let cs ← collectWith early self
  cs.forM (adopt self policy)
  return cs

/-- The traversal children of a node. -/
def children (self : NodeId) (policy : ParentPolicy) : Edit (List NodeId) :=
  childrenWith (Early.filling self) self policy

/-- The traversal children of a value, which has to be a node. -/
def childrenOf (v : Value) (policy : ParentPolicy) : Edit (List NodeId) := do
  match v with
  | .node n => children n policy
  | _ => throw (.notANode (← read (·.typeName v)))

/-- A method of nodes, applied to a value that has to be one. -/
def onNode (v : Value) (method : String) (f : NodeId → Edit α) : Edit α := do
  match v with
  | .node n => f n
  | _ => throw (← read (·.methodFault v method))

/-- An operand as a value. -/
def operandValue : Operand → Edit Value
  | .single v => return v
  | .group vs => return .list (← newList vs)

/-- The structural children of a value, which has to be a node. -/
def structuralOf (v : Value) : Edit (List Value) :=
  onNode v "structural_children" fun n => do
    let ops ← tryRead (·.structural n)
    ops.mapM operandValue

/-- The value of a directive. -/
def directiveValueOf (v : Value) : Edit Value :=
  onNode v "directive_value" fun n => tryRead fun s =>
    let missing := .error (s.methodFault v "directive_value")
    match (s.node n).form with
    | .statement _ st =>
      match st.directiveValue?, s.callable v "directive_value" with
      | some value, .ok _ => s.orMissing v "value" value
      | _, .error fault => .error fault
      | none, .ok _ => missing
    | _ => missing

/-- What is wrong with giving a node of a class a field of this name, if anything is. -/
def givenFault? (c : NodeClass) (name : String) : Option Fault :=
  if name == "self" then some (.secondSelf c.name name)
  else if (["line", "column", "filename"] ++ c.fieldNames).contains name then none
  else some (.unexpectedField c.name name)

/-- Makes a node of a class from the fields that are given. -/
def makeNode (c : NodeClass) (given : List (String × Value)) : Edit NodeId := do
  match given.findSome? fun g => givenFault? c g.1 with
  | some fault => throw fault
  | none =>
    let values ← c.info.fields.mapM fun f =>
      match given.lookup f.1, f.2 with
      | some v, _ => pure v
      | none, .value v => pure v
      | none, .emptyList => return Value.list (← newList [])
      | none, .emptyTable => return Value.table (← newTable [])
    let part (name : String) : Value := (given.lookup name).getD .null
    newNode {
      position := { line := part "line", column := part "column", file := part "filename" }
      form := (Form.ofFields? c values).getD .bare }

end Edit

end SheetLint
