import SheetLint.Data
import SheetLint.Store

/-!
# Values as plain data

What a value is as plain data. A node is no data: it stays a thing that is known by its place. Lists
and tables are copied, so later changes of the store do not show.
-/

namespace SheetLint

namespace Store

/-- A value as plain data to a depth of `depth`. -/
def plainTo (s : Store) : (depth : Nat) → Value → Data
  | 0, _ => .null
  | d + 1, v =>
    let inner := s.plainTo d
    match v with
    | .null => .null
    | .bool b => .bool b
    | .int i => .int i
    | .float x m => .float x m
    | .text t => .text t
    | .list l => .list ((s.list l).map inner)
    | .tuple _ xs => .tuple (xs.map inner)
    | .table t => .table ((s.table t).map fun e => (inner e.1, inner e.2))
    | .location _ l c n =>
      .record "Location" [("line", inner l), ("column", inner c), ("length", inner n)]
    | .node n => .thing n (s.typeName v)
    | _ => .word (s.typeName v)

/-- A value as plain data. Values that contain themselves are cut off. -/
def plain (s : Store) (v : Value) : Data :=
  s.plainTo (s.weight + v.weight + 1) v

end Store

end SheetLint
