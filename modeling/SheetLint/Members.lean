import SheetLint.Agent
import SheetLint.Members.Description

/-!
# Members

What values have under a name because of their type, and share with all values of it: methods, and a
few things about the type itself. A member is only known by the name of its own type; what is done
by calling one is said where it is called.
-/

namespace SheetLint

namespace Members

/-- A method of nodes, lints, locations or agents. -/
def method : Value := .foreign "method"

/-- A method that comes with the type of a plain value. -/
def builtin : Value := .foreign "builtin_function_or_method"

/-- An operator that comes with a type. -/
def wrapper : Value := .foreign "method-wrapper"

/-- How a lint that can be fixed says what the corrected text is. -/
def correction : Value := .foreign "method_descriptor"

/-- The operators that everything has. -/
def commonWrappers : List String :=
  ["__delattr__", "__eq__", "__ge__", "__getattribute__", "__gt__", "__hash__", "__init__",
   "__le__", "__lt__", "__ne__", "__repr__", "__setattr__", "__str__"]

/-- The methods that everything has. -/
def commonBuiltins : List String :=
  ["__dir__", "__format__", "__getstate__", "__init_subclass__", "__new__", "__reduce__",
   "__reduce_ex__", "__sizeof__", "__subclasshook__"]

/-- A member that everything has. -/
def common? (name : String) : Option Value :=
  if name == "__class__" then some (.foreign "type")
  else if commonWrappers.contains name then some wrapper
  else if commonBuiltins.contains name then some builtin
  else none

/-- The operators of numbers. -/
def numberWrappers : List String :=
  ["__abs__", "__add__", "__bool__", "__divmod__", "__float__", "__floordiv__", "__int__",
   "__mod__", "__mul__", "__neg__", "__pos__", "__pow__", "__radd__", "__rdivmod__",
   "__rfloordiv__", "__rmod__", "__rmul__", "__rpow__", "__rsub__", "__rtruediv__", "__sub__",
   "__truediv__"]

/-- The operators of whole numbers alone. -/
def integerWrappers : List String :=
  ["__and__", "__index__", "__invert__", "__lshift__", "__or__", "__rand__", "__rlshift__",
   "__ror__", "__rrshift__", "__rshift__", "__rxor__", "__xor__"]

/-- The methods of numbers. -/
def numberBuiltins : List String :=
  ["__ceil__", "__floor__", "__getnewargs__", "__round__", "__trunc__", "as_integer_ratio",
   "conjugate"]

/-- The methods of texts. -/
def textBuiltins : List String :=
  ["__getnewargs__", "capitalize", "casefold", "center", "count", "encode", "endswith",
   "expandtabs", "find", "format", "format_map", "index", "isalnum", "isalpha", "isascii",
   "isdecimal", "isdigit", "isidentifier", "islower", "isnumeric", "isprintable", "isspace",
   "istitle", "isupper", "join", "ljust", "lower", "lstrip", "maketrans", "partition",
   "removeprefix", "removesuffix", "replace", "rfind", "rindex", "rjust", "rpartition", "rsplit",
   "rstrip", "split", "splitlines", "startswith", "strip", "swapcase", "title", "translate",
   "upper", "zfill"]

/-- The operators that plain values have besides the common ones. -/
def plainWrappers : Value → List String
  | .null => ["__bool__"]
  | .bool _ => numberWrappers ++ integerWrappers
  | .int _ => numberWrappers ++ integerWrappers
  | .float .. => numberWrappers
  | .text _ =>
    ["__add__", "__contains__", "__getitem__", "__iter__", "__len__", "__mod__", "__mul__",
     "__rmod__", "__rmul__"]
  | .list _ =>
    ["__add__", "__contains__", "__delitem__", "__iadd__", "__imul__", "__iter__", "__len__",
     "__mul__", "__rmul__", "__setitem__"]
  | .tuple .. =>
    ["__add__", "__contains__", "__getitem__", "__iter__", "__len__", "__mul__", "__rmul__"]
  | .table _ =>
    ["__delitem__", "__ior__", "__iter__", "__len__", "__or__", "__ror__", "__setitem__"]
  | _ => []

/-- The methods that plain values have besides the common ones. -/
def plainBuiltins : Value → List String
  | .bool _ => numberBuiltins ++ ["bit_count", "bit_length", "from_bytes", "to_bytes"]
  | .int _ => numberBuiltins ++ ["bit_count", "bit_length", "from_bytes", "to_bytes"]
  | .float .. => numberBuiltins ++ ["__getformat__", "fromhex", "hex", "is_integer"]
  | .text _ => textBuiltins
  | .list _ =>
    ["__class_getitem__", "__getitem__", "__reversed__", "append", "clear", "copy", "count",
     "extend", "index", "insert", "pop", "remove", "reverse", "sort"]
  | .tuple .. => ["__class_getitem__", "__getnewargs__", "count", "index"]
  | .table _ =>
    ["__class_getitem__", "__contains__", "__getitem__", "__reversed__", "clear", "copy",
     "fromkeys", "get", "items", "keys", "pop", "popitem", "setdefault", "update", "values"]
  | _ => []

/-- The parts of a number, which it computes. -/
def numberPart? (v : Value) (name : String) : Option Value :=
  let whole (i : Int) : Option Value :=
    match name with
    | "real" => some (.int i)
    | "imag" => some (.int 0)
    | "numerator" => some (.int i)
    | "denominator" => some (.int 1)
    | _ => none
  match v, name with
  | .bool b, _ => whole (if b then 1 else 0)
  | .int i, _ => whole i
  | .float x m, "real" => some (.float x m)
  | .float .., "imag" => some (.float (.finite false 0 0) 0)
  | _, _ => none

/-- A member of a plain value that is no part of it. Lists and tables cannot be hashed. -/
def plain? (v : Value) (name : String) : Option Value :=
  match v, name with
  | .list _, "__hash__" => some .null
  | .table _, "__hash__" => some .null
  | _, "__doc__" => some ((Description.plain? v).elim .null .text)
  | _, _ =>
    if (plainWrappers v).contains name then some wrapper
    else if (plainBuiltins v).contains name then some builtin
    else common? name

/-- The name of the type by which messages know the parts of a number. -/
def partType : Value → String
  | .float .. => "float"
  | _ => "int"

/-- The methods of every node. -/
def nodeMethods : List String :=
  ["__init__", "__repr__", "structural_children", "_collect_children", "traversal_children"]

/-- A member of a node by its class. Only bare nodes can be hashed, and only they are compared by
identity. -/
def node? (c : NodeClass) (name : String) : Option Value :=
  match name with
  | "__module__" =>
    some (.text (if c == .bare then "scss_lint.domain.tree.base"
      else if c.derives .script then "scss_lint.domain.tree.script"
      else "scss_lint.domain.tree.nodes"))
  | "__doc__" => some (.text c.words)
  | "__dataclass_params__" => some (.foreign "_DataclassParams")
  | "directive_value" => if c.derives .directive then some method else none
  | "__eq__" => some (if c == .bare then wrapper else method)
  | "__hash__" => some (if c == .bare then wrapper else .null)
  | _ => if nodeMethods.contains name then some method else common? name

/-- The comparisons that order locations. -/
def orderings : List String := ["__lt__", "__le__", "__gt__", "__ge__"]

/-- The methods of values that never change. -/
def frozenMethods : List String :=
  ["__init__", "__repr__", "__eq__", "__hash__", "__setattr__", "__delattr__"]

/-- A member of a location. -/
def location? (name : String) : Option Value :=
  match name with
  | "__module__" => some (.text "scss_lint.domain.location")
  | "__doc__" => some (.text Description.location)
  | "__dataclass_params__" => some (.foreign "_DataclassParams")
  | "from_node" => some method
  | _ => if (frozenMethods ++ orderings).contains name then some method else common? name

/-- A member of a lint. -/
def lint? (name : String) : Option Value :=
  match name with
  | "__module__" => some (.text "scss_lint.domain.lint")
  | "__doc__" => some (.text Description.lint)
  | "__dataclass_params__" => some (.foreign "_DataclassParams")
  | "is_error" => some method
  | _ => if frozenMethods.contains name then some method else common? name

/-- Where the class of an agent is defined. Derived classes and stand-ins belong to whoever runs
them. -/
def home (r : Role) : String :=
  match r with
  | .settings .. => "scss_lint.domain.config"
  | .linter l => if l.behaviour.isDerived then "__main__" else "scss_lint.domain.rules"
  | .standIn _ => "__main__"

/-- What the class of an agent says its agents are, if it says anything. -/
def agentWords? (r : Role) : Option String :=
  match r with
  | .settings .. => some Description.settings
  | .linter l => if l.behaviour.isDerived then none else some Description.linter
  | .standIn _ => none

/-- A member of an agent. -/
def agent? (r : Role) (name : String) : Option Value :=
  match name with
  | "__module__" => some (.text (home r))
  | "__doc__" => some ((agentWords? r).elim .null .text)
  | _ => if r.methods.contains name then some method else common? name

end Members

end SheetLint
