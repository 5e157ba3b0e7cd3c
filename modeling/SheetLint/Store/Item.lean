import SheetLint.Store.Attribute

/-!
# Items

Reading and assigning what tables have at a key and rows at a place, and making a table of a row of
pairs. Paths of keys lead through tables and rows; only tables and lists can be written to.
-/

namespace SheetLint

namespace Store

/-- The place in a row of `size` items that a number names. Negative numbers count from the end. -/
def place? (size : Nat) (i : Int) : Option Nat :=
  let j := if i < 0 then i + size else i
  if 0 ≤ j ∧ j < size then some j.toNat else none

/-- The number that a value is as a place in a row. -/
def index? : Value → Option Int
  | .int i => some i
  | .bool b => some (if b then 1 else 0)
  | _ => none

/-- Whether a number can be a place in a row of any length. -/
def isIndex (i : Int) : Bool := -0x8000000000000000 ≤ i && i < 0x8000000000000000

/-- An item of a row by its place. -/
def itemAt (sequence : String) (xs : List Value) (i : Int) : Except Fault Value :=
  if !isIndex i then .error .hugeIndex
  else
    match (place? xs.length i).bind (xs[·]?) with
    | some x => .ok x
    | none => .error (.outOfRange sequence)

/-- What a table has at a key, and a list, tuple or text at a place. -/
def item (s : Store) (v k : Value) : Except Fault Value :=
  match v, index? k with
  | .table t, _ =>
    match s.keyFault? k with
    | some fault => .error fault
    | none =>
      match (s.table t).get? k with
      | some w => .ok w
      | none => .error (.missingKey (s.quoted k))
  | .list l, some i => itemAt "list" (s.list l) i
  | .tuple _ xs, some i => itemAt "tuple" xs i
  | .text t, some i =>
    itemAt "string" (t.toList.map fun c => .text (String.singleton c)) i
  | .text _, none => .error (.badTextIndex (s.typeName k))
  | .list _, none => .error (.badIndex "list" (s.typeName k))
  | .tuple .., none => .error (.badIndex "tuple" (s.typeName k))
  | _, _ => .error (.noItems (s.typeName v))

/-- What is at the end of a path of keys. -/
def follow (s : Store) (v : Value) : List Value → Except Fault Value
  | [] => .ok v
  | k :: ks =>
    match s.item v k with
    | .ok w => s.follow w ks
    | .error fault => .error fault

/-- Whether writing to an item first takes a number for a place. Tables take any key, and plain
numbers are refused at once. -/
def takesPlaces : Value → Bool
  | .null => false
  | .bool _ => false
  | .int _ => false
  | .float .. => false
  | .table _ => false
  | .foreign _ => false
  | _ => true

/-- Writes to a table at a key, or to a list at a place. Nothing else that has items can be written
to. -/
def assign (s : Store) (v k new : Value) : Except Fault Store :=
  if takesPlaces v && (index? k).elim false (!isIndex ·) then .error .hugeIndex
  else
    match v, index? k with
    | .table t, _ => (s.putKey (s.table t) k new).map (s.writeTable t)
    | .list l, some i =>
      match place? (s.list l).length i with
      | some p => .ok (s.setList l ((s.list l).set p new))
      | none => .error (.outOfRange "list assignment")
    | .list _, none => .error (.badIndex "list" (s.typeName k))
    | _, _ => .error (.fixedItems (s.typeName v))

/-- Writes at the last key of a path, given what the others lead to. -/
def assignLast (s : Store) (v : Value) (path : List Value) (new : Value) : Except Fault Store :=
  match path.getLast? with
  | none => .error (.outOfRange "list")
  | some k => s.assign v k new

/-- Empties a list or table. -/
def emptied (s : Store) (v : Value) : Except Fault Store :=
  match v with
  | .list l => .ok (s.setList l [])
  | .table t => .ok (s.writeTable t [])
  | _ => .error (s.methodFault v "clear")

/-- The key and the value that an item of a sequence stands for, if it has two members. -/
def pairOf (s : Store) (x : Value) (index : Nat) : Except Fault (Value × Value) :=
  match s.items x with
  | .error _ => .error (.noPair index)
  | .ok [k, v] => .ok (k, v)
  | .ok ys => .error (.pairLength index ys.length)

/-- The table that a sequence of pairs stands for. -/
def entriesOfPairs (s : Store) : (index : Nat) → List Value → Table → Except Fault Table
  | _, [], t => .ok t
  | i, x :: xs, t =>
    match s.pairOf x i with
    | .error fault => .error fault
    | .ok (k, v) =>
      match s.putKey t k v with
      | .error fault => .error fault
      | .ok t => s.entriesOfPairs (i + 1) xs t

/-- The entries of a copy of a value: a table has its own, and anything else has to be a sequence of
pairs. Something that seems to have keys is asked for them first. -/
def copiedEntries (s : Store) (v : Value) : Except Fault Table :=
  match v with
  | .table t => .ok (s.table t)
  | _ =>
    match s.getAttribute v "keys" with
    | .ok _ => .error (s.methodFault v "keys")
    | .error _ =>
      match s.items v with
      | .error fault => .error fault
      | .ok xs => s.entriesOfPairs 0 xs []

end Store

end SheetLint
