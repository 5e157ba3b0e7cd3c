import SheetLint.Value

/-!
# Node classes

The classes of nodes of a style sheet's tree: the bare node, ten classes of expressions and
thirty of statements. A class fixes the name and the kind of its nodes, its base class
and its fields with what they hold when nothing is given.
-/

namespace SheetLint

/-- The class of a node. -/
inductive NodeClass where
  | bare
  | script
  | variable
  | literal
  | stringInterpolation
  | interpolation
  | funcall
  | listLiteral
  | mapLiteral
  | operation
  | unaryOperation
  | statement
  | root
  | rule
  | prop
  | comment
  | expr
  | debug
  | warn
  | error
  | returns
  | whileLoop
  | assignment
  | ifElse
  | each
  | forLoop
  | callable
  | function
  | mixinDef
  | mixin
  | content
  | extend
  | importSheet
  | importCss
  | charset
  | directive
  | media
  | supports
  | atRoot
  | keyframeRule
  deriving DecidableEq, Repr, Inhabited

/-- What a field holds when it is not given. Empty lists and tables are made anew for every
node. -/
inductive FieldDefault where
  | value (v : Value)
  | emptyList
  | emptyTable

/-- What is fixed by a class. The fields are those after the location; a statement's begin
with its children. -/
structure ClassInfo where
  name : String
  kind : String
  base : Option NodeClass
  fields : List (String × FieldDefault)

namespace ClassInfo

/-- Nothing. -/
def absent : FieldDefault := .value .null

/-- The empty text, or another one. -/
def word (s : String) : FieldDefault := .value (.text s)

/-- An empty list. -/
def noItems : FieldDefault := .emptyList

/-- A switch that is off. -/
def off : FieldDefault := .value (.bool false)

/-- An expression class. -/
def expression (name kind : String) (fields : List (String × FieldDefault)) : ClassInfo :=
  ⟨name, kind, some .script, fields⟩

/-- A statement class, which has children before its own fields. -/
def statement (name kind : String) (base : NodeClass) (fields : List (String × FieldDefault)) :
    ClassInfo :=
  ⟨name, kind, some base, ("children", noItems) :: fields⟩

end ClassInfo

namespace NodeClass

open ClassInfo in
/-- The table of classes. -/
def info : NodeClass → ClassInfo
  | .bare => ⟨"TraversalNode", "node", none, []⟩
  | .script => ⟨"ScriptNode", "script", some .bare, []⟩
  | .variable => expression "Variable" "script_variable" [("name", word "")]
  | .literal => expression "Literal" "script_literal" [("value", absent)]
  | .stringInterpolation => expression "StringInterpolation" "script_string_interpolation"
      [("before", absent), ("mid", absent), ("after", absent)]
  | .interpolation => expression "Interpolation" "script_interpolation"
      [("before", absent), ("mid", absent), ("after", absent), ("whitespace_before", off),
       ("whitespace_after", off)]
  | .funcall => expression "Funcall" "script_funcall"
      [("name", word ""), ("args", noItems), ("keywords", .emptyTable), ("splat", absent),
       ("kwarg_splat", absent)]
  | .listLiteral => expression "ListLiteral" "script_list"
      [("elements", noItems), ("separator", word "space")]
  | .mapLiteral => expression "MapLiteral" "script_map" [("pairs", noItems)]
  | .operation => expression "Operation" "script_operation"
      [("operand1", absent), ("operator", word ""), ("operand2", absent)]
  | .unaryOperation => expression "UnaryOperation" "script_unary_operation"
      [("operator", word ""), ("operand", absent)]
  | .statement => ⟨"Node", "node", some .bare, [("children", noItems)]⟩
  | .root => ClassInfo.statement "RootNode" "root" .statement [("template", word "")]
  | .rule => ClassInfo.statement "RuleNode" "rule" .statement [("rule", noItems)]
  | .prop => ClassInfo.statement "PropNode" "prop" .statement
      [("name", noItems), ("value", absent)]
  | .comment => ClassInfo.statement "CommentNode" "comment" .statement
      [("value", noItems), ("type", word "normal")]
  | .expr => ClassInfo.statement "ExprNode" "node" .statement [("expr", absent)]
  | .debug => ClassInfo.statement "DebugNode" "debug" .expr [("expr", absent)]
  | .warn => ClassInfo.statement "WarnNode" "warn" .expr [("expr", absent)]
  | .error => ClassInfo.statement "ErrorNode" "error" .expr [("expr", absent)]
  | .returns => ClassInfo.statement "ReturnNode" "return" .expr [("expr", absent)]
  | .whileLoop => ClassInfo.statement "WhileNode" "while" .expr [("expr", absent)]
  | .assignment => ClassInfo.statement "VariableNode" "variable" .expr
      [("expr", absent), ("name", word ""), ("guarded", off), ("global_", off)]
  | .ifElse => ClassInfo.statement "IfNode" "if" .statement
      [("expr", absent), ("else_", absent)]
  | .each => ClassInfo.statement "EachNode" "each" .statement
      [("vars", noItems), ("list_", absent)]
  | .forLoop => ClassInfo.statement "ForNode" "for" .statement
      [("var", word ""), ("from_", absent), ("to", absent), ("exclusive", off)]
  | .callable => ClassInfo.statement "CallableDefNode" "node" .statement
      [("name", word ""), ("args", noItems), ("splat", absent)]
  | .function => ClassInfo.statement "FunctionNode" "function" .callable
      [("name", word ""), ("args", noItems), ("splat", absent)]
  | .mixinDef => ClassInfo.statement "MixinDefNode" "mixindef" .callable
      [("name", word ""), ("args", noItems), ("splat", absent), ("has_content", off)]
  | .mixin => ClassInfo.statement "MixinNode" "mixin" .statement
      [("name", word ""), ("args", noItems), ("keywords", .emptyTable), ("splat", absent),
       ("kwarg_splat", absent)]
  | .content => ClassInfo.statement "ContentNode" "content" .statement []
  | .extend => ClassInfo.statement "ExtendNode" "extend" .statement
      [("selector", noItems), ("optional", off)]
  | .importSheet => ClassInfo.statement "ImportNode" "import" .statement
      [("imported_filename", word "")]
  | .importCss => ClassInfo.statement "CssImportNode" "cssimport" .importSheet
      [("imported_filename", word ""), ("uri", word "")]
  | .charset => ClassInfo.statement "CharsetNode" "charset" .statement [("name", word "")]
  | .directive => ClassInfo.statement "DirectiveNode" "directive" .statement [("value", noItems)]
  | .media => ClassInfo.statement "MediaNode" "media" .directive
      [("value", noItems), ("query", noItems)]
  | .supports => ClassInfo.statement "SupportsNode" "supports" .directive
      [("value", noItems), ("name", word "supports"), ("condition", absent)]
  | .atRoot => ClassInfo.statement "AtRootNode" "atroot" .statement [("query", noItems)]
  | .keyframeRule => ClassInfo.statement "KeyframeRuleNode" "keyframerule" .statement
      [("resolved_value", word "")]

/-- Every class. -/
def all : List NodeClass :=
  [.bare, .script, .variable, .literal, .stringInterpolation, .interpolation, .funcall,
   .listLiteral, .mapLiteral, .operation, .unaryOperation, .statement, .root, .rule, .prop,
   .comment, .expr, .debug, .warn, .error, .returns, .whileLoop, .assignment, .ifElse, .each,
   .forLoop, .callable, .function, .mixinDef, .mixin, .content, .extend, .importSheet,
   .importCss, .charset, .directive, .media, .supports, .atRoot, .keyframeRule]

/-- The name of a class. -/
def name (c : NodeClass) : String := c.info.name

/-- The kind of a class's nodes, by which linters choose what to visit. -/
def kind (c : NodeClass) : String := c.info.kind

/-- The names of a class's fields after the location, in order. -/
def fieldNames (c : NodeClass) : List String := c.info.fields.map (·.1)

/-- The class of a name. -/
def ofName? (s : String) : Option NodeClass := all.find? fun c => c.name == s

/-- The chain of base classes above a class is at most this long. -/
def maxDepth : Nat := 4

/-- Whether `c` is `d` or has it among its bases. -/
def derivesWithin : Nat → NodeClass → NodeClass → Bool
  | 0, c, d => c == d
  | n + 1, c, d =>
    c == d || match c.info.base with
      | none => false
      | some b => derivesWithin n b d

/-- Whether every node of class `c` is one of class `d`. -/
def derives (c d : NodeClass) : Bool := derivesWithin maxDepth c d

end NodeClass

end SheetLint
