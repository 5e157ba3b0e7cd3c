import SheetLint.Moment
import SheetLint.Text.Clipped
import SheetLint.Text.Quoted

/-!
# Faults

What can go wrong, by cause. `Fault.message` is the only place that words a fault.
-/

namespace SheetLint

/-- The comparisons that order values. -/
inductive Comparison where
  | lt
  | le
  | gt
  | ge
  deriving DecidableEq, Repr

namespace Comparison

/-- The sign of a comparison. -/
def sign : Comparison → String
  | .lt => "<"
  | .le => "<="
  | .gt => ">"
  | .ge => ">="

/-- Whether a comparison holds of two things in this order. -/
def holds : Comparison → Ordering → Bool
  | .lt, o => o == .lt
  | .le, o => o != .gt
  | .gt, o => o == .gt
  | .ge, o => o != .lt

end Comparison

/-- A cause of failure. Types, kinds, lines and values are given by their printed form. -/
inductive Fault where
  /-- Something that is no node was asked for its traversal children or parent. -/
  | notANode (type : String)
  /-- A child list holds something that is no node. -/
  | strayChild (type value : String)
  /-- A node is already attached to another live parent. -/
  | secondParent (kind line parentKind parentLine : String)
  /-- A node that is to be reported has no line. -/
  | noLine (kind : String)
  /-- Something that is called and is no method. -/
  | notCallable (type : String)
  /-- Something that cannot be gone through item by item. -/
  | notIterable (type : String)
  /-- Something that can neither be hashed nor be a key. -/
  | unhashable (type : String)
  /-- Something that should be spread over the arguments of a function and has no items. -/
  | notSpreadable (function type : String)
  /-- A class was to be named by a text that no class can have as its name. -/
  | badClassName
  /-- A path that no file system can have. -/
  | badPath
  /-- A node was given a field its class does not have. -/
  | unexpectedField (className field : String)
  /-- A node was given a second value for what it is itself. -/
  | secondSelf (className field : String)
  /-- A location was made of too many parts. -/
  | tooManyParts (given : Nat)
  /-- Two values have no order. -/
  | incomparable (op : Comparison) (left right : String)
  /-- Something that no child can refer to as its parent. -/
  | noBackReference (type : String)
  /-- Something other than a table was given where settings are layered. -/
  | notMapping (type : String)
  /-- An item of what should become a table is no pair. -/
  | noPair (index : Nat)
  /-- An item of what should become a table has the wrong number of members. -/
  | pairLength (index length : Nat)
  /-- A value has no attribute of this name. -/
  | missingAttribute (type name : String)
  /-- Something that is no text was given as the name of an attribute. -/
  | badAttributeName (type : String)
  /-- An attribute that is computed and cannot be assigned. -/
  | noSetter (name className : String)
  /-- An attribute that plain values of a type compute. -/
  | notWritable (name type : String)
  /-- An attribute that all plain values of a type share. -/
  | readOnly (type name : String)
  /-- A class was to be replaced by something that is none. -/
  | noClass (type : String)
  /-- The attributes were to be replaced by something that is no table. -/
  | noAttributes (type : String)
  /-- An attribute of a value that never changes; the name is quoted. -/
  | frozen (name : String)
  /-- A list, tuple or text has no item at the place that was asked for. -/
  | outOfRange (sequence : String)
  /-- A number is too great to be a place in anything. -/
  | hugeIndex
  /-- A list or tuple was asked for an item by something that is no place in it. -/
  | badIndex (sequence type : String)
  /-- A text was asked for a character by something that is no place in it. -/
  | badTextIndex (type : String)
  /-- A table has no such key; the key is in printed form. -/
  | missingKey (key : String)
  /-- Something that has no items to look up. -/
  | noItems (type : String)
  /-- Something whose items cannot be assigned. -/
  | fixedItems (type : String)
  /-- A file is not in the text encoding. -/
  | undecodable
  /-- A whole number has more decimal digits than are read. -/
  | tooManyDigits (count : Nat)
  /-- A whole number has more decimal digits than are printed. -/
  | unprintable
  /-- A text is no whole number in a base. -/
  | badInteger (base : Nat) (text : String)
  /-- A text is no number. -/
  | badFloat (text : String)
  /-- A whole number is beyond all fractions. -/
  | hugeFactor
  /-- A number is beyond all code points. -/
  | noCodePoint
  /-- A number is too great to be asked whether it is a code point. -/
  | hugeCodePoint
  /-- Something that is no word of a vocabulary; the value is in printed form. -/
  | noSuchWord (value vocabulary : String)
  /-- A moment that does not exist. -/
  | badMoment (flaw : MomentFlaw)
  /-- A visit went deeper than any tree without a cycle allows. -/
  | tooDeep
  deriving DecidableEq, Repr

namespace Fault

/-- The most decimal digits a whole number may be written with. -/
def digitLimit : Nat := 4300

/-- The least number that has more decimal digits than that. -/
def digitBound : Nat := Nat.pow 10 digitLimit

/-- How messages name the limit. -/
def limitText : String :=
  "Exceeds the limit (" ++ toString digitLimit ++ " digits) for integer string conversion"

/-- How messages tell to raise the limit. -/
def limitAdvice : String :=
  "; use sys.set_int_max_str_digits() to increase the limit"

/-- The fault of reading a whole number with this many decimal digits, if there is one. -/
def ofDigitCount? (count : Nat) : Option Fault :=
  if digitLimit < count then some (.tooManyDigits count) else none

/-- The fault of printing a whole number, if it has more decimal digits than are printed. -/
def ofInt? (i : Int) : Option Fault :=
  if i.natAbs < digitBound then none else some .unprintable

theorem ofInt?_eq_some {i : Int} {fault : Fault} (h : ofInt? i = some fault) :
    fault = .unprintable := by
  unfold ofInt? at h
  split at h
  · cases h
  · exact (Option.some.inj h).symm

/-- At most two hundred characters of a text in quotes. -/
def quotedStart (text : String) : String :=
  String.ofList ((Text.quoted text).toList.take 200)

/-- The name of a type where a message has room for up to two hundred bytes of it. -/
def typeText (type : String) : String := Text.clipped 200 type

/-- The wording of a fault. Most messages have only so much room for the name of a type. -/
def message : Fault → String
  | notANode type => "Not a traversable node: " ++ type
  | strayChild type value => "Expected a node in child list, got " ++ type ++ ": " ++ value
  | secondParent kind line parentKind parentLine =>
    kind ++ " node at line " ++ line ++ " is already attached to a " ++ parentKind ++
      " node at line " ++ parentLine
  | noLine kind => kind ++ " node has no source line"
  | notCallable type => "'" ++ typeText type ++ "' object is not callable"
  | notIterable type => "'" ++ typeText type ++ "' object is not iterable"
  | unhashable type => "unhashable type: '" ++ typeText type ++ "'"
  | notSpreadable function type =>
    function ++ "() argument after * must be an iterable, not " ++ typeText type
  | badClassName => "type name must not contain null characters"
  | badPath => "embedded null byte"
  | unexpectedField className field =>
    className ++ ".__init__() got an unexpected keyword argument '" ++ field ++ "'"
  | secondSelf className field =>
    className ++ ".__init__() got multiple values for argument '" ++ field ++ "'"
  | tooManyParts given =>
    "Location.__init__() takes from 1 to 4 positional arguments but " ++ toString (given + 1) ++
      " were given"
  | incomparable op left right =>
    "'" ++ op.sign ++ "' not supported between instances of '" ++ Text.clipped 100 left ++
      "' and '" ++ Text.clipped 100 right ++ "'"
  | noBackReference type => "cannot create weak reference to '" ++ type ++ "' object"
  | notMapping type => "'" ++ typeText type ++ "' object is not a mapping"
  | noPair index =>
    "cannot convert dictionary update sequence element #" ++ toString index ++ " to a sequence"
  | pairLength index length =>
    "dictionary update sequence element #" ++ toString index ++ " has length " ++
      toString length ++ "; 2 is required"
  | missingAttribute type name =>
    "'" ++ Text.clipped 50 type ++ "' object has no attribute '" ++ name ++ "'"
  | badAttributeName type => "attribute name must be string, not '" ++ typeText type ++ "'"
  | noSetter name className =>
    "property " ++ Text.quoted name ++ " of " ++ Text.quoted className ++ " object has no setter"
  | notWritable name type =>
    "attribute '" ++ name ++ "' of '" ++ type ++ "' objects is not writable"
  | readOnly type name => "'" ++ type ++ "' object attribute '" ++ name ++ "' is read-only"
  | noClass type => "__class__ must be set to a class, not '" ++ type ++ "' object"
  | noAttributes type => "__dict__ must be set to a dictionary, not a '" ++ typeText type ++ "'"
  | frozen name => "cannot assign to field " ++ name
  | outOfRange sequence => sequence ++ " index out of range"
  | hugeIndex => "cannot fit 'int' into an index-sized integer"
  | badIndex sequence type =>
    sequence ++ " indices must be integers or slices, not " ++ typeText type
  | badTextIndex type => "string indices must be integers, not '" ++ typeText type ++ "'"
  | missingKey key => key
  | noItems type => "'" ++ typeText type ++ "' object is not subscriptable"
  | fixedItems type => "'" ++ typeText type ++ "' object does not support item assignment"
  | undecodable => ""
  | tooManyDigits count =>
    limitText ++ ": value has " ++ toString count ++ " digits" ++ limitAdvice
  | unprintable => limitText ++ limitAdvice
  | badInteger base text =>
    "invalid literal for int() with base " ++ toString base ++ ": " ++ quotedStart text
  | badFloat text => "could not convert string to float: " ++ Text.quoted text
  | hugeFactor => "int too large to convert to float"
  | noCodePoint => "chr() arg not in range(0x110000)"
  | hugeCodePoint => "Python int too large to convert to C int"
  | noSuchWord value vocabulary => value ++ " is not a valid " ++ vocabulary
  | badMoment flaw => flaw.message
  | tooDeep => "maximum recursion depth exceeded"

end Fault

end SheetLint
