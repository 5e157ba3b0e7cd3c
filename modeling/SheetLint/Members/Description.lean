import SheetLint.Node.Class
import SheetLint.Text.Quoted

/-!
# Descriptions

Every type says in a few words what it is, and what sort of thing it expects in a field. Nothing
checks that; it can only be read. A class of nodes without words of its own is described by how its
nodes are made.
-/

namespace SheetLint

namespace Description

/-- A description of several lines, each indented, between two line breaks. -/
def note (lines : List String) : String :=
  "\n" ++ String.join (lines.map fun l => (if l == "" then "" else "    " ++ l) ++ "\n") ++ "    "

/-- What a location is. -/
def location : String := note
    ["Position of a lint in a file.",
     "",
     "Ordered by line, then column, then length so lints can be sorted.",
     "Columns and lengths are 1-based."]

/-- What a lint is. -/
def lint : String := note
    ["A single problem detected by a linter.",
     "",
     "Immutable once created. The optional autocorrect callable is deferred:",
     "it receives the source text and returns the corrected text, and it is",
     "only ever invoked by a fixer outside this package. It is excluded from",
     "equality so duplicate lints compare equal."]

/-- What a linter is. -/
def linter : String := note
    ["Visitor over traversal children that collects Lint records.",
     "",
     "Subclasses define `visit_<kind>(node)` for the variants they care about.",
     "A visit method that wants to descend further calls `visit_children(node)`;",
     "variants without a visit method are descended into automatically."]

/-- What settings are. -/
def settings : String := note
    ["Immutable configuration for linter settings.",
     "",
     "Created by Infrastructure from a merged config dict. Domain does not read",
     "the filesystem; Infrastructure calls ConfigFileLoader.load_config_from_fs()",
     "and constructs ConfigurationLoader(config_dict) at the composition root."]

/-- What plain values are, by their types. -/
def plain? : Value → Option String
  | .bool _ => some (String.intercalate "\n"
    ["bool(x) -> bool",
     "",
     "Returns True when the argument x is true, False otherwise.",
     "The builtins True and False are the only two instances of the class bool.",
     "The class bool is a subclass of the class int, and cannot be subclassed."])
  | .int _ => some (String.intercalate "\n"
    ["int([x]) -> integer",
     "int(x, base=10) -> integer",
     "",
     "Convert a number or string to an integer, or return 0 if no arguments",
     "are given.  If x is a number, return x.__int__().  For floating point",
     "numbers, this truncates towards zero.",
     "",
     "If x is not a number or if base is given, then x must be a string,",
     "bytes, or bytearray instance representing an integer literal in the",
     "given base.  The literal can be preceded by '+' or '-' and be surrounded",
     "by whitespace.  The base defaults to 10.  Valid bases are 0 and 2-36.",
     "Base 0 means to interpret the base from the string as an integer literal.",
     ">>> int('0b100', base=0)",
     "4"])
  | .float .. => some "Convert a string or number to a floating point number, if possible."
  | .text _ => some (String.intercalate "\n"
    ["str(object='') -> str",
     "str(bytes_or_buffer[, encoding[, errors]]) -> str",
     "",
     "Create a new string object from the given object. If encoding or",
     "errors is specified, then the object must expose a data buffer",
     "that will be decoded using the given encoding and error handler.",
     "Otherwise, returns the result of object.__str__() (if defined)",
     "or repr(object).",
     "encoding defaults to sys.getdefaultencoding().",
     "errors defaults to 'strict'."])
  | .list _ => some (String.intercalate "\n"
    ["Built-in mutable sequence.",
     "",
     "If no argument is given, the constructor creates a new empty list.",
     "The argument must be an iterable if specified."])
  | .tuple .. => some (String.intercalate "\n"
    ["Built-in immutable sequence.",
     "",
     "If no argument is given, the constructor returns an empty tuple.",
     "If iterable is specified the tuple is initialized from iterable's items.",
     "",
     "If the argument is a tuple, the return value is the same object."])
  | .table _ => some (String.intercalate "\n"
    ["dict() -> new empty dictionary",
     "dict(mapping) -> new dictionary initialized from a mapping object's",
     "    (key, value) pairs",
     "dict(iterable) -> new dictionary initialized as if via:",
     "    d = \x7b\x7d",
     "    for k, v in iterable:",
     "        d[k] = v",
     "dict(**kwargs) -> new dictionary initialized with the name=value pairs",
     "    in the keyword argument list.  For example:  dict(one=1, two=2)"])
  | _ => none

end Description

namespace NodeClass

/-- What a class says its nodes are. -/
def words? : NodeClass → Option String
  | .bare => some (Description.note
    ["Base of the tagged union mirroring the host grammar.",
     "",
     "Location fields may be None where the parser does not position a",
     "sub-expression; they are back-filled from the containing node the first",
     "time the node is exposed to traversal. Location and parent never take part",
     "in equality."])
  | .script => some "Base class for all expression nodes."
  | .variable => some "A variable reference, e.g. `$base-color`. The name excludes the `$`."
  | .literal => some "A literal value: number, color, string, keyword or null."
  | .stringInterpolation => some "A quoted string containing `#\x7b\x7d`."
  | .interpolation => some "An unquoted `#\x7b\x7d` interpolation."
  | .funcall => some "A function call, e.g. `darken($color, 10%)`."
  | .listLiteral => some "A space or comma separated list."
  | .mapLiteral => some "A map literal, e.g. `(small: 4px, large: 8px)`."
  | .operation => some "A binary operation, e.g. `$a + 1`."
  | .unaryOperation => some "A unary operation, e.g. `-$gutter` or `not $flag`."
  | .statement => some (Description.note
    ["Base class for statement nodes.",
     "",
     "Two statement nodes are equal when they are of the same variant and their",
     "structural children are equal; location is not compared."])
  | .root => some "The top of a parsed document."
  | .rule => some "A rule set, e.g. `.nav #\x7b$item\x7d \x7b ... \x7d`."
  | .prop => some "A property declaration. Nested property groups have no value."
  | .comment => some "A comment. Loud comments may interpolate expressions."
  | .expr => some "Shared shape of directives that carry a single expression."
  | .assignment => some "A variable assignment, e.g. `$gutter: 10px !default`."
  | .ifElse => some (Description.note
    ["An `@if` with its optional `@else` chain.",
     "",
     "A plain `@else` is an IfNode without an expression."])
  | .each => some "`@each $key, $value in $map`. Loop variables are stored as bare names."
  | .forLoop => some "`@for $i from 1 through 3`. The loop variable is stored as a bare name."
  | .callable => some "Shared shape of `@function` and `@mixin` definitions."
  | .mixin => some "An `@include`. Keyword names are stored as bare strings."
  | .extend => some "`@extend %placeholder !optional`."
  | .importSheet => some (Description.note
    ["An `@import` of a Sass file.",
     "",
     "Imports of the same file are equal wherever they appear in the source."])
  | .importCss => some "An `@import` left for the browser to resolve, e.g. `@import url(foo.css)`."
  | .directive => some "A generic at-directive, e.g. `@font-face` or `@page :first`."
  | .keyframeRule => some "A keyframe selector such as `from`, `to` or `50%`."
  | _ => none

/-- The sorts of things that a class expects in the fields it adds to those of its base. -/
def ownSorts : NodeClass → List (String × String)
  | .bare => [("kind", "ClassVar[str]"), ("is_expression", "ClassVar[bool]"),
      ("line", "int | None"), ("column", "int | None"), ("filename", "str | None"),
      ("_parent_ref", "weakref.ref[TraversalNode] | None")]
  | .variable => [("name", "str")]
  | .literal => [("value", "Any")]
  | .stringInterpolation => [("before", "ScriptNode | None"), ("mid", "ScriptNode | None"),
      ("after", "ScriptNode | None")]
  | .interpolation => [("before", "ScriptNode | None"), ("mid", "ScriptNode | None"),
      ("after", "ScriptNode | None"), ("whitespace_before", "bool"), ("whitespace_after", "bool")]
  | .funcall => [("name", "str"), ("args", "list[ScriptNode]"),
      ("keywords", "dict[str, ScriptNode]"), ("splat", "ScriptNode | None"),
      ("kwarg_splat", "ScriptNode | None")]
  | .listLiteral => [("elements", "list[ScriptNode]"), ("separator", "str")]
  | .mapLiteral => [("pairs", "list[tuple[ScriptNode, ScriptNode]]")]
  | .operation => [("operand1", "ScriptNode | None"), ("operator", "str"),
      ("operand2", "ScriptNode | None")]
  | .unaryOperation => [("operator", "str"), ("operand", "ScriptNode | None")]
  | .statement => [("children", "list[Node]")]
  | .root => [("template", "str")]
  | .rule => [("rule", "InterpolatedText")]
  | .prop => [("name", "InterpolatedText"), ("value", "ScriptNode | None")]
  | .comment => [("value", "InterpolatedText"), ("type", "str")]
  | .expr => [("expr", "ScriptNode | None")]
  | .assignment => [("name", "str"), ("guarded", "bool"), ("global_", "bool")]
  | .ifElse => [("expr", "ScriptNode | None"), ("else_", "IfNode | None")]
  | .each => [("vars", "list[str]"), ("list_", "ScriptNode | None")]
  | .forLoop => [("var", "str"), ("from_", "ScriptNode | None"), ("to", "ScriptNode | None"),
      ("exclusive", "bool")]
  | .callable => [("name", "str"), ("args", "list[tuple[Variable, ScriptNode | None]]"),
      ("splat", "Variable | None")]
  | .mixinDef => [("has_content", "bool")]
  | .mixin => [("name", "str"), ("args", "list[ScriptNode]"),
      ("keywords", "dict[str, ScriptNode]"), ("splat", "ScriptNode | None"),
      ("kwarg_splat", "ScriptNode | None")]
  | .extend => [("selector", "InterpolatedText"), ("optional", "bool")]
  | .importSheet => [("imported_filename", "str")]
  | .importCss => [("uri", "str")]
  | .charset => [("name", "str")]
  | .directive => [("value", "InterpolatedText")]
  | .media => [("query", "InterpolatedText")]
  | .supports => [("name", "str"), ("condition", "Any")]
  | .atRoot => [("query", "InterpolatedText")]
  | .keyframeRule => [("resolved_value", "str")]
  | _ => []

/-- The sorts of things a class expects in all fields, up to `depth` bases away. -/
def sortsWithin : (depth : Nat) → NodeClass → List (String × String)
  | 0, c => c.ownSorts
  | n + 1, c => c.info.base.elim [] (sortsWithin n) ++ c.ownSorts

/-- The sorts that the class itself lists, or else the nearest of its bases that lists any. -/
def listedSorts : (depth : Nat) → NodeClass → List (String × String)
  | 0, c => c.ownSorts
  | n + 1, c =>
    if c.ownSorts.isEmpty then c.info.base.elim [] (listedSorts n) else c.ownSorts

/-- What a field holds if nothing is given, in print. -/
def printedDefault : FieldDefault → String
  | .value (.text s) => Text.quoted s
  | .value (.bool b) => if b then "True" else "False"
  | .value _ => "None"
  | _ => "<factory>"

/-- How a node of a class is made: the fields with their sorts and what they hold if nothing is
given. -/
def recipe (c : NodeClass) : String :=
  let sorts := c.sortsWithin maxDepth
  let fields := ["line", "column", "filename"].map (·, FieldDefault.value .null) ++ c.info.fields
  let one (f : String × FieldDefault) : String :=
    f.1 ++ ": " ++ Text.quoted ((sorts.lookup f.1).getD "") ++ " = " ++ printedDefault f.2
  c.name ++ "(" ++ String.intercalate ", " (fields.map one) ++ ")"

/-- What a class says its nodes are, or else how they are made. -/
def words (c : NodeClass) : String := c.words?.getD c.recipe

end NodeClass

end SheetLint
