import SheetLint.Node.Class

/-!
# Forms of nodes

The form of a node is what its class says it holds: the operands of an expression, or the
children and the own parts of a statement. `Form.fields` lists these in the order of the class's
fields, and `Form.ofFields?` goes back.
-/

namespace SheetLint

/-- An expression. -/
inductive Expression where
  | script
  | variable (name : Value)
  | literal (value : Value)
  | stringInterpolation (before mid after : Value)
  | interpolation (before mid after spaceBefore spaceAfter : Value)
  | funcall (name args keywords splat keywordSplat : Value)
  | list (elements separator : Value)
  | map (pairs : Value)
  | operation (left operator right : Value)
  | unary (operator operand : Value)
  deriving Inhabited

/-- The directives that carry a single expression. -/
inductive Carrier where
  | plain
  | debug
  | warn
  | error
  | returns
  | whileLoop
  deriving DecidableEq, Repr

/-- What a statement has besides its children. -/
inductive Statement where
  | plain
  | root (template : Value)
  | rule (selector : Value)
  | prop (name value : Value)
  | comment (body style : Value)
  | carrier (c : Carrier) (expr : Value)
  | assignment (expr name guarded isGlobal : Value)
  | ifElse (expr otherwise : Value)
  | each (vars list : Value)
  | forLoop (var first last exclusive : Value)
  | callable (isFunction : Bool) (name args splat : Value)
  | mixinDef (name args splat hasContent : Value)
  | mixin (name args keywords splat keywordSplat : Value)
  | content
  | extend (selector isOptional : Value)
  | importSheet (file : Value)
  | importCss (file uri : Value)
  | charset (name : Value)
  | directive (value : Value)
  | media (value query : Value)
  | supports (value name condition : Value)
  | atRoot (query : Value)
  | keyframeRule (value : Value)
  deriving Inhabited

/-- What a node holds. -/
inductive Form where
  | bare
  | expression (e : Expression)
  | statement (children : Value) (s : Statement)
  deriving Inhabited

namespace Carrier

/-- The class of a directive. -/
def nodeClass : Carrier → NodeClass
  | .plain => .expr
  | .debug => .debug
  | .warn => .warn
  | .error => .error
  | .returns => .returns
  | .whileLoop => .whileLoop

end Carrier

namespace Expression

/-- The class of an expression. -/
def nodeClass : Expression → NodeClass
  | .script => .script
  | .variable _ => .variable
  | .literal _ => .literal
  | .stringInterpolation .. => .stringInterpolation
  | .interpolation .. => .interpolation
  | .funcall .. => .funcall
  | .list .. => .listLiteral
  | .map _ => .mapLiteral
  | .operation .. => .operation
  | .unary .. => .unaryOperation

/-- The parts of an expression, in the order of its class's fields. -/
def fields : Expression → List Value
  | .script => []
  | .variable name => [name]
  | .literal value => [value]
  | .stringInterpolation before mid after => [before, mid, after]
  | .interpolation before mid after spaceBefore spaceAfter =>
    [before, mid, after, spaceBefore, spaceAfter]
  | .funcall name args keywords splat keywordSplat => [name, args, keywords, splat, keywordSplat]
  | .list elements separator => [elements, separator]
  | .map pairs => [pairs]
  | .operation left operator right => [left, operator, right]
  | .unary operator operand => [operator, operand]

end Expression

namespace Statement

/-- The class of a statement. -/
def nodeClass : Statement → NodeClass
  | .plain => .statement
  | .root _ => .root
  | .rule _ => .rule
  | .prop .. => .prop
  | .comment .. => .comment
  | .carrier c _ => c.nodeClass
  | .assignment .. => .assignment
  | .ifElse .. => .ifElse
  | .each .. => .each
  | .forLoop .. => .forLoop
  | .callable isFunction .. => if isFunction then .function else .callable
  | .mixinDef .. => .mixinDef
  | .mixin .. => .mixin
  | .content => .content
  | .extend .. => .extend
  | .importSheet _ => .importSheet
  | .importCss .. => .importCss
  | .charset _ => .charset
  | .directive _ => .directive
  | .media .. => .media
  | .supports .. => .supports
  | .atRoot _ => .atRoot
  | .keyframeRule _ => .keyframeRule

/-- The own parts of a statement, in the order of its class's fields after the children. -/
def fields : Statement → List Value
  | .plain => []
  | .root template => [template]
  | .rule selector => [selector]
  | .prop name value => [name, value]
  | .comment body style => [body, style]
  | .carrier _ expr => [expr]
  | .assignment expr name guarded isGlobal => [expr, name, guarded, isGlobal]
  | .ifElse expr otherwise => [expr, otherwise]
  | .each vars list => [vars, list]
  | .forLoop var first last exclusive => [var, first, last, exclusive]
  | .callable _ name args splat => [name, args, splat]
  | .mixinDef name args splat hasContent => [name, args, splat, hasContent]
  | .mixin name args keywords splat keywordSplat => [name, args, keywords, splat, keywordSplat]
  | .content => []
  | .extend selector isOptional => [selector, isOptional]
  | .importSheet file => [file]
  | .importCss file uri => [file, uri]
  | .charset name => [name]
  | .directive value => [value]
  | .media value query => [value, query]
  | .supports value name condition => [value, name, condition]
  | .atRoot query => [query]
  | .keyframeRule value => [value]

/-- The parts, besides the children, that two statements of one class must share to be equal:
imports are known by what they import. -/
def identity : Statement → List Value
  | .importSheet file => [file]
  | .importCss file uri => [file, uri]
  | _ => []

end Statement

namespace Form

/-- The class of a node of this form. -/
def nodeClass : Form → NodeClass
  | .bare => .bare
  | .expression e => e.nodeClass
  | .statement _ s => s.nodeClass

/-- The fields of a node of this form after its location. -/
def fields : Form → List Value
  | .bare => []
  | .expression e => e.fields
  | .statement children s => children :: s.fields

/-- Expressions take a missing location from their container; nothing else does. -/
def isExpression : Form → Bool
  | .expression _ => true
  | _ => false

/-- The form of a class with these fields, if there are as many as the class has. -/
def ofFields? : NodeClass → List Value → Option Form
  | .bare, [] => some .bare
  | .script, [] => some (.expression .script)
  | .variable, [name] => some (.expression (.variable name))
  | .literal, [value] => some (.expression (.literal value))
  | .stringInterpolation, [b, m, a] => some (.expression (.stringInterpolation b m a))
  | .interpolation, [b, m, a, sb, sa] => some (.expression (.interpolation b m a sb sa))
  | .funcall, [n, a, k, s, ks] => some (.expression (.funcall n a k s ks))
  | .listLiteral, [elements, separator] => some (.expression (.list elements separator))
  | .mapLiteral, [pairs] => some (.expression (.map pairs))
  | .operation, [left, operator, right] => some (.expression (.operation left operator right))
  | .unaryOperation, [operator, operand] => some (.expression (.unary operator operand))
  | .statement, [ch] => some (.statement ch .plain)
  | .root, [ch, template] => some (.statement ch (.root template))
  | .rule, [ch, selector] => some (.statement ch (.rule selector))
  | .prop, [ch, name, value] => some (.statement ch (.prop name value))
  | .comment, [ch, body, style] => some (.statement ch (.comment body style))
  | .expr, [ch, e] => some (.statement ch (.carrier .plain e))
  | .debug, [ch, e] => some (.statement ch (.carrier .debug e))
  | .warn, [ch, e] => some (.statement ch (.carrier .warn e))
  | .error, [ch, e] => some (.statement ch (.carrier .error e))
  | .returns, [ch, e] => some (.statement ch (.carrier .returns e))
  | .whileLoop, [ch, e] => some (.statement ch (.carrier .whileLoop e))
  | .assignment, [ch, e, n, g, gl] => some (.statement ch (.assignment e n g gl))
  | .ifElse, [ch, e, o] => some (.statement ch (.ifElse e o))
  | .each, [ch, vars, list] => some (.statement ch (.each vars list))
  | .forLoop, [ch, v, f, t, x] => some (.statement ch (.forLoop v f t x))
  | .callable, [ch, n, a, s] => some (.statement ch (.callable false n a s))
  | .function, [ch, n, a, s] => some (.statement ch (.callable true n a s))
  | .mixinDef, [ch, n, a, s, c] => some (.statement ch (.mixinDef n a s c))
  | .mixin, [ch, n, a, k, s, ks] => some (.statement ch (.mixin n a k s ks))
  | .content, [ch] => some (.statement ch .content)
  | .extend, [ch, s, o] => some (.statement ch (.extend s o))
  | .importSheet, [ch, f] => some (.statement ch (.importSheet f))
  | .importCss, [ch, f, u] => some (.statement ch (.importCss f u))
  | .charset, [ch, n] => some (.statement ch (.charset n))
  | .directive, [ch, v] => some (.statement ch (.directive v))
  | .media, [ch, v, q] => some (.statement ch (.media v q))
  | .supports, [ch, v, n, c] => some (.statement ch (.supports v n c))
  | .atRoot, [ch, q] => some (.statement ch (.atRoot q))
  | .keyframeRule, [ch, v] => some (.statement ch (.keyframeRule v))
  | _, _ => none

end Form

end SheetLint
