import SheetLint.Store
import SheetLint.Sorting

/-!
# Equality, order and keys

Numbers are equal when their values are, lists and tuples item by item, tables regardless of
order. Expressions are equal when their classes and fields are; statements when their classes and
children are, and for imports what they import. Where they stand in the source and whom they are
attached to plays no part. Inside a container, one and the same thing always equals itself.

Nodes that have lost an attribute cannot be compared with others of their class:
`Store.equalityFault?` finds the lost attribute that a comparison would meet first.
-/

namespace SheetLint

namespace Value

/-- Whether two lists have the same length and members related in pairs. -/
def pairwise (r : Value → Value → Bool) : List Value → List Value → Bool
  | [], [] => true
  | x :: xs, y :: ys => r x y && pairwise r xs ys
  | _, _ => false

end Value

namespace Table

/-- Whether two tables have as many entries, and each of the first has one in the second with the
same key and a related value. -/
def agree (r : Value → Value → Bool) (t u : Table) : Bool :=
  t.length == u.length && t.all fun e =>
    match u.get? e.1 with
    | some v => r e.2 v
    | none => false

end Table

namespace Store

/-- Equality of two nodes, given equality of values. -/
def sameNode (s : Store) (same : Value → Value → Bool) (n m : NodeId) : Bool :=
  match (s.node n).form, (s.node m).form with
  | .bare, .bare => n == m
  | .expression e, .expression f =>
    e.nodeClass == f.nodeClass &&
      Value.pairwise (fun x y => x.identical y || same x y) e.fields f.fields
  | .statement xs p, .statement ys q =>
    p.nodeClass == q.nodeClass && same xs ys && Value.pairwise same p.identity q.identity
  | _, _ => false

/-- Equality of values that differ, if at all, within a depth of `depth`. -/
def sameTo (s : Store) : (depth : Nat) → Value → Value → Bool
  | 0, _, _ => false
  | d + 1, a, b =>
    let member (x y : Value) : Bool := x.identical y || s.sameTo d x y
    match a, b with
    | .null, .null => true
    | .text t, .text u => t == u
    | .list l, .list m => Value.pairwise member (s.list l) (s.list m)
    | .tuple _ xs, .tuple _ ys => Value.pairwise member xs ys
    | .table t, .table u => (s.table t).agree member (s.table u)
    | .node n, .node m => s.sameNode (s.sameTo d) n m
    | .location _ l c n, .location _ l' c' n' => Value.pairwise member [l, c, n] [l', c', n']
    | .lint _ t f l x v _, .lint _ t' f' l' x' v' _ =>
      Value.pairwise member [t, f, l, x, v] [t', f', l', x', v']
    | .agent t, .agent t' => t == t'
    | .severity x, .severity y => x == y
    | .policy x, .policy y => x == y
    | .foreign x, .foreign y => x == y
    | _, _ =>
      match a.number?, b.number? with
      | some x, some y => x.same y
      | _, _ => false

/-- A depth at which every comparison among these values is decided, unless it runs in circles: no
more than there are pairs of parts. -/
def depthAmong (s : Store) (vs : List Value) : Nat :=
  let parts := s.weight + Value.weightAll vs + 1
  parts * parts

/-- Equality of values. -/
def same (s : Store) (a b : Value) : Bool :=
  s.sameTo (s.depthAmong [a, b]) a b

/-- Whether two values, as members of a container, count as one, compared to a depth of `depth`. -/
def sameMemberTo (s : Store) (depth : Nat) (a b : Value) : Bool :=
  a.identical b || s.sameTo depth a b

/-- The first fault of comparing two rows, member by member, up to the first that differ. -/
def rowFault? (same : Value → Value → Bool) (fault? : Value → Value → Option Fault) :
    List Value → List Value → Option Fault
  | x :: xs, y :: ys =>
    match fault? x y with
    | some fault => some fault
    | none => if same x y then rowFault? same fault? xs ys else none
  | _, _ => none

/-- The fault of reading something that is lost. -/
def lost? : Value → Option Fault
  | .missing owner name => some (.missingAttribute owner name)
  | _ => none

/-- What statements are compared by, in order: what an import imports comes before the children. -/
def statementParts (children : Value) (st : Statement) : List Value :=
  st.identity.take 1 ++ children :: st.identity.drop 1

/-- The first lost attribute that is met when two nodes are compared. Expressions are asked for all
their fields before any is compared. -/
def nodeFault? (s : Store) (same : Value → Value → Bool) (fault? : Value → Value → Option Fault)
    (n m : NodeId) : Option Fault :=
  match (s.node n).form, (s.node m).form with
  | .expression e, .expression f =>
    if e.nodeClass == f.nodeClass then
      (e.fields ++ f.fields).findSome? lost? <|>
        rowFault? (fun x y => x.identical y || same x y)
          (fun x y => if x.identical y then none else fault? x y) e.fields f.fields
    else none
  | .statement xs p, .statement ys q =>
    if p.nodeClass == q.nodeClass then
      rowFault? same fault? (statementParts xs p) (statementParts ys q)
    else none
  | _, _ => none

/-- The first lost attribute that is met when values are compared to a depth of `depth`. Lists and
tables of different lengths are not looked into. -/
def equalityFaultTo (s : Store) : (depth : Nat) → Value → Value → Option Fault
  | 0, _, _ => none
  | d + 1, a, b =>
    let rows := rowFault? (fun x y => x.identical y || s.sameTo d x y)
      (fun x y => if x.identical y then none else s.equalityFaultTo d x y)
    match a, b with
    | .missing .., _ => lost? a
    | _, .missing .. => lost? b
    | .list l, .list m =>
      if (s.list l).length == (s.list m).length then rows (s.list l) (s.list m) else none
    | .tuple _ xs, .tuple _ ys => rows xs ys
    | .table t, .table u =>
      let found := ((s.table t).keys.map (s.table u).get?).takeWhile Option.isSome
      if (s.table t).length == (s.table u).length then
        rows (s.table t).values (found.filterMap id)
      else none
    | .node n, .node m => s.nodeFault? (s.sameTo d) (s.equalityFaultTo d) n m
    | .location _ l c n, .location _ l' c' n' => rows [l, c, n] [l', c', n']
    | .lint _ t f l x v _, .lint _ t' f' l' x' v' _ => rows [t, f, l, x, v] [t', f', l', x', v']
    | _, _ => none

/-- What keeps two values from being compared, if anything does. -/
def equalityFault? (s : Store) (a b : Value) : Option Fault :=
  if s.hasMissing then s.equalityFaultTo (s.depthAmong [a, b]) a b else none

/-- Where nothing was lost, everything can be compared. -/
theorem equalityFault?_of_unbacked {s : Store} (h : s.hasBacked = false) (a b : Value) :
    s.equalityFault? a b = none := by
  simp [equalityFault?, hasMissing, h]

/-- Equality of values, if they can be compared. -/
def trySame (s : Store) (a b : Value) : Except Fault Bool :=
  match s.equalityFault? a b with
  | some fault => .error fault
  | none => .ok (s.same a b)

/-- Whether two values, as members of a container, count as one, if they can be compared to a depth
of `depth`. -/
def trySameMember (s : Store) (depth : Nat) (a b : Value) : Except Fault Bool :=
  if a.identical b then .ok true
  else
    match s.equalityFault? a b with
    | some fault => .error fault
    | none => .ok (s.sameMemberTo depth a b)

/-- Whether a value counts as one of these, which are asked in turn. -/
def isAmong (s : Store) (depth : Nat) (v : Value) : List Value → Except Fault Bool
  | [] => .ok false
  | x :: xs =>
    match s.trySameMember depth x v with
    | .error fault => .error fault
    | .ok true => .ok true
    | .ok false => s.isAmong depth v xs

/-- The order of two texts, by code points. -/
def textOrder (t u : String) : Ordering :=
  if Text.Half.points t < Text.Half.points u then .lt else if t == u then .eq else .gt

/-- Compares two rows of values: the first place where they differ decides, and else their
lengths. -/
def compareRows (member compare : Value → Value → Except Fault Bool)
    (op : Comparison) : List Value → List Value → Except Fault Bool
  | x :: xs, y :: ys =>
    match member x y with
    | .error fault => .error fault
    | .ok true => compareRows member compare op xs ys
    | .ok false => compare x y
  | xs, ys => .ok (op.holds (Ord.compare xs.length ys.length))

/-- Compares values to a depth of `depth`. Members are tested for equality to a depth of `inner`. -/
def compareTo (s : Store) (op : Comparison) (inner : Nat) :
    (depth : Nat) → Value → Value → Except Fault Bool
  | 0, a, b => .error (.incomparable op (s.typeName a) (s.typeName b))
  | d + 1, a, b =>
    let rows := compareRows (s.trySameMember inner) (s.compareTo op inner d) op
    match a, b with
    | .text t, .text u => .ok (op.holds (textOrder t u))
    | .list l, .list m => rows (s.list l) (s.list m)
    | .tuple _ xs, .tuple _ ys => rows xs ys
    | .location _ l c n, .location _ l' c' n' => rows [l, c, n] [l', c', n']
    | _, _ =>
      match a.number?, b.number? with
      | some x, some y => .ok ((x.order y).elim false op.holds)
      | _, _ => .error (.incomparable op (s.typeName a) (s.typeName b))

/-- Whether a comparison of two rows of values holds, decided at a depth of `depth`. -/
def compareRow (s : Store) (depth : Nat) (op : Comparison) (xs ys : List Value) :
    Except Fault Bool :=
  compareRows (s.trySameMember depth) (s.compareTo op depth depth) op xs ys

/-- Whether a comparison of two values holds. Numbers, texts, lists, tuples and locations have an
order, each among themselves. -/
def compare (s : Store) (op : Comparison) (a b : Value) : Except Fault Bool :=
  let depth := s.depthAmong [a, b]
  s.compareTo op depth depth a b

/-- Values from the least up. -/
def sorted (s : Store) (vs : List Value) : Except Fault (List Value) :=
  let depth := s.depthAmong vs
  Sorting.sort (s.compareTo .lt depth depth) vs

mutual

/-- The fault of using a value as a key: what can change, and nodes that compare by what they
hold, cannot be one. -/
def keyFault? (s : Store) : Value → Option Fault
  | .list _ => some (.unhashable "list")
  | .table _ => some (.unhashable "dict")
  | .tuple _ xs => keyFaultAmong? s xs
  | .location _ l c n => (keyFault? s l <|> keyFault? s c) <|> keyFault? s n
  | .lint _ src f loc d sev _ =>
    (((keyFault? s src <|> keyFault? s f) <|> keyFault? s loc) <|> keyFault? s d) <|>
      keyFault? s sev
  | .node n =>
    match (s.node n).nodeClass with
    | .bare => none
    | c => some (.unhashable c.name)
  | _ => none

def keyFaultAmong? (s : Store) : List Value → Option Fault
  | [] => none
  | x :: xs => keyFault? s x <|> keyFaultAmong? s xs

end

/-- Writes a value at a key, unless the key cannot be one. -/
def putKey (s : Store) (t : Table) (k v : Value) : Except Fault Table :=
  match s.keyFault? k with
  | some fault => .error fault
  | none => .ok (t.put k v)

end Store

end SheetLint
