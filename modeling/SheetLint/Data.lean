import SheetLint.Entries
import SheetLint.Fault
import SheetLint.Moment
import SheetLint.Number.Decimal
import SheetLint.Text.Quoted

/-!
# Plain data

The data of a settings file, and the picture of a value that is printed: scalars, lists, tuples,
tables in order of insertion and named records. A settings file may also hold moments, raw bytes and
sets. `Data.quoted` is the one printer of the project; `Data.same` is equality, in which numbers
compare by their value, and tables and sets regardless of order.
-/

namespace SheetLint

/-- A plain tree of data. A `word` stands for itself in print. A number carries a mark, which tells
numbers that are no number apart. A `thing` is something that is not data: it is only known by a
number of its own and by the name of its type. -/
inductive Data where
  | null
  | bool (b : Bool)
  | int (i : Int)
  | float (x : Binary64) (mark : Nat)
  | text (s : String)
  | list (items : List Data)
  | tuple (items : List Data)
  | table (entries : List (Data × Data))
  | record (name : String) (fields : List (String × Data))
  | moment (m : Moment)
  | bytes (bs : List UInt8)
  | set (items : List Data)
  | word (s : String)
  | thing (id : Nat) (type : String)
  deriving Inhabited

namespace Data

/-- Puts a separator between texts. -/
def joined (parts : List String) : String :=
  String.intercalate ", " parts

mutual

/-- The printed form: texts quoted, lists in brackets, tuples in parentheses with a comma after
a lone member, tables in braces, records as a call with named fields. -/
def quoted : Data → String
  | .null => "None"
  | .bool b => if b then "True" else "False"
  | .int i => toString i
  | .float x _ => x.text
  | .text s => Text.quoted s
  | .list items => "[" ++ joined (quotedItems items) ++ "]"
  | .tuple items =>
    let parts := quotedItems items
    "(" ++ joined parts ++ (if parts.length == 1 then ",)" else ")")
  | .table entries => "\x7b" ++ joined (quotedEntries entries) ++ "\x7d"
  | .record name fields => name ++ "(" ++ joined (quotedFields fields) ++ ")"
  | .moment m => m.quoted
  | .bytes bs => Text.quotedBytes bs
  | .set items =>
    let parts := quotedItems items
    if parts.isEmpty then "set()" else "\x7b" ++ joined parts ++ "\x7d"
  | .word s => s
  | .thing _ type => "<" ++ type ++ ">"

def quotedItems : List Data → List String
  | [] => []
  | d :: ds => quoted d :: quotedItems ds

def quotedEntries : List (Data × Data) → List String
  | [] => []
  | (k, v) :: es => (quoted k ++ ": " ++ quoted v) :: quotedEntries es

def quotedFields : List (String × Data) → List String
  | [] => []
  | (f, v) :: fs => (f ++ "=" ++ quoted v) :: quotedFields fs

end

/-- The bare form: a text is itself, a moment is as it is commonly written, everything else is in
its printed form. -/
def bare : Data → String
  | .text s => s
  | .moment m => m.bare
  | d => d.quoted

/-- Zero, nothing and what is empty count as false. -/
def truthy : Data → Bool
  | .null => false
  | .bool b => b
  | .int i => i != 0
  | .float x _ => !x.isZero
  | .text s => s != ""
  | .list items => !items.isEmpty
  | .tuple items => !items.isEmpty
  | .table entries => !entries.isEmpty
  | .bytes bs => !bs.isEmpty
  | .set items => !items.isEmpty
  | _ => true

/-- The point of the number line a number or truth value stands for. -/
def number? : Data → Option Magnitude
  | .bool b => some (.finite (if b then 1 else 0))
  | .int i => some (.finite i)
  | .float x _ => some x.magnitude
  | _ => none

mutual

/-- Equality: numbers by value, tables and sets regardless of order, everything else part by part. A
number that is no number equals itself alone. -/
def same : Data → Data → Bool
  | .null, .null => true
  | .text s, .text t => s == t
  | .list xs, .list ys => sameItems xs ys
  | .tuple xs, .tuple ys => sameItems xs ys
  | .table xs, .table ys => xs.length == ys.length && sameEntries xs ys
  | .record n fs, .record m gs => n == m && sameFields fs gs
  | .moment m, .moment k => m.same k
  | .bytes xs, .bytes ys => xs == ys
  | .set xs, .set ys => xs.length == ys.length && sameMembers xs ys
  | .word s, .word t => s == t
  | .thing i _, .thing k _ => i == k
  | .float .nan m, .float .nan k => m == k
  | a, b =>
    match a.number?, b.number? with
    | some x, some y => x.same y
    | _, _ => false

def sameItems : List Data → List Data → Bool
  | [], [] => true
  | x :: xs, y :: ys => same x y && sameItems xs ys
  | _, _ => false

def sameMembers : List Data → List Data → Bool
  | [], _ => true
  | x :: xs, ys => ys.any (same x) && sameMembers xs ys

def sameEntries : List (Data × Data) → List (Data × Data) → Bool
  | [], _ => true
  | (k, v) :: es, ys => (ys.any fun e => same k e.1 && same v e.2) && sameEntries es ys

def sameFields : List (String × Data) → List (String × Data) → Bool
  | [], [] => true
  | (f, v) :: fs, (g, w) :: gs => f == g && same v w && sameFields fs gs
  | _, _ => false

end

mutual

/-- Whether every whole number in a datum is short enough to be printed. -/
def printable : Data → Bool
  | .int i => i.natAbs < Fault.digitBound
  | .list items => printableItems items
  | .tuple items => printableItems items
  | .set items => printableItems items
  | .table entries => printableEntries entries
  | .record _ fields => printableFields fields
  | _ => true

def printableItems : List Data → Bool
  | [] => true
  | d :: ds => printable d && printableItems ds

def printableEntries : List (Data × Data) → Bool
  | [] => true
  | (k, v) :: es => printable k && printable v && printableEntries es

def printableFields : List (String × Data) → Bool
  | [] => true
  | (_, v) :: fs => printable v && printableFields fs

end

/-- The value at a text key of a table's entries. -/
def lookup (name : String) (entries : List (Data × Data)) : Option Data :=
  Entries.get? same (.text name) entries

end Data

end SheetLint
