import SheetLint.Entries
import SheetLint.Number.Decimal
import SheetLint.Severity

/-!
# Values

What a node's field, a list or a table can hold. Fields are not typed: a parser may put
anything anywhere, and what then happens is part of the job. Nodes, lists, tables, and linters and
settings, which are called agents, are shared and can change, so a value only names them, by their
place; everything else is held in full.

Two values may be one and the same thing or only look alike. What is held in full and never
changes carries a mark for that: the number it was made with. Marks matter for what refers to a
thing, for a thing that contains itself, and for the number that is no number, which equals
nothing but itself as a member of a container.
-/

namespace SheetLint

/-- The place of a node in the store. -/
abbrev NodeId := Nat

/-- The place of a list in the store. -/
abbrev ListId := Nat

/-- The place of a table in the store. -/
abbrev TableId := Nat

/-- The place of a linter, a stand-in for one, or settings. -/
abbrev AgentId := Nat

/-- A value. -/
inductive Value where
  | null
  | bool (b : Bool)
  | int (i : Int)
  | float (x : Binary64) (mark : Nat)
  | text (s : String)
  | list (id : ListId)
  | tuple (mark : Nat) (items : List Value)
  | table (id : TableId)
  | node (id : NodeId)
  | location (mark : Nat) (line column length : Value)
  | lint (mark : Nat) (source file location description severity : Value) (fixable : Bool)
  | agent (id : AgentId)
  | severity (s : Severity)
  | policy (p : ParentPolicy)
  /-- Something of a type that nothing here looks into. -/
  | foreign (type : String)
  /-- What stands where a thing of the class `owner` has lost an attribute: reading it fails. -/
  | missing (owner name : String)
  deriving Inhabited

/-- A thing that can be told from others that look like it. -/
inductive Cell where
  | node (n : NodeId)
  | list (l : ListId)
  | table (t : TableId)
  | agent (i : AgentId)
  | number (mark : Nat)
  | tuple (mark : Nat)
  | location (mark : Nat)
  | lint (mark : Nat)
  deriving DecidableEq, Repr

namespace Value

/-- Whether a value is absent. -/
def isNull : Value → Bool
  | .null => true
  | _ => false

/-- Whether a value stands where an attribute was lost. -/
def isMissing : Value → Bool
  | .missing .. => true
  | _ => false

/-- The node a value names. -/
def node? : Value → Option NodeId
  | .node n => some n
  | _ => none

/-- Which thing a value is. Values without an answer are known by what they look like. -/
def cell? : Value → Option Cell
  | .node n => some (.node n)
  | .list l => some (.list l)
  | .table t => some (.table t)
  | .agent i => some (.agent i)
  | .float .nan m => some (.number m)
  | .tuple m _ => some (.tuple m)
  | .location m .. => some (.location m)
  | .lint m .. => some (.lint m)
  | _ => none

/-- Whether two values are one and the same thing. -/
def identical (a b : Value) : Bool :=
  match a.cell?, b.cell? with
  | some x, some y => x == y
  | _, _ => false

/-- The point of the number line a number or truth value stands for. -/
def number? : Value → Option Magnitude
  | .bool b => some (.finite (if b then 1 else 0))
  | .int i => some (.finite i)
  | .float x _ => some x.magnitude
  | _ => none

mutual

/-- The number of parts of a value that are held in full. -/
def weight : Value → Nat
  | .tuple _ items => weightAll items + 1
  | .location _ l c n => weight l + weight c + weight n + 1
  | .lint _ src f l d s _ => weight src + weight f + weight l + weight d + weight s + 1
  | _ => 1

def weightAll : List Value → Nat
  | [] => 0
  | v :: vs => weight v + weightAll vs

end

mutual

/-- Equality of values that can be keys of a table. Nodes and agents are then compared by
identity, all else by its parts. -/
def sameKey : Value → Value → Bool
  | .null, .null => true
  | .text s, .text t => s == t
  | .float x m, .float y k => x.magnitude.same y.magnitude || identical (.float x m) (.float y k)
  | .tuple _ xs, .tuple _ ys => sameKeys xs ys
  | .node n, .node m => n == m
  | .location _ a b c, .location _ a' b' c' => sameKey a a' && sameKey b b' && sameKey c c'
  | .lint _ t f l d s _, .lint _ t' f' l' d' s' _ =>
    sameKey t t' && sameKey f f' && sameKey l l' && sameKey d d' && sameKey s s'
  | .agent t, .agent t' => t == t'
  | .severity a, .severity b => a == b
  | .policy a, .policy b => a == b
  | .foreign a, .foreign b => a == b
  | a, b =>
    match a.number?, b.number? with
    | some x, some y => x.same y
    | _, _ => false

def sameKeys : List Value → List Value → Bool
  | [], [] => true
  | x :: xs, y :: ys => sameKey x y && sameKeys xs ys
  | _, _ => false

end

end Value

/-- The entries of a table, in order of insertion. -/
abbrev Table := List (Value × Value)

namespace Table

/-- The value at a key. -/
def get? (t : Table) (k : Value) : Option Value :=
  Entries.get? Value.sameKey k t

/-- Writes a value at a key. -/
def put (t : Table) (k v : Value) : Table :=
  Entries.put Value.sameKey k v t

/-- The values, in order. -/
def values (t : Table) : List Value :=
  t.map (·.2)

/-- The keys, in order. -/
def keys (t : Table) : List Value :=
  t.map (·.1)

end Table

end SheetLint
