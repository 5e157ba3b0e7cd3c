import SheetLint.Store.Picture

/-!
# Flattening

Child lists nest freely: a field may hold a node, a list, a tuple of a name and a default, or
nothing. Flattening gives the nodes from left to right, drops what is absent, and stops at the
first leaf that is neither. A list that contains itself has no end.
-/

namespace SheetLint

/-- Why a nest cannot be flattened. -/
inductive Stray where
  /-- A leaf that is no node. -/
  | leaf (v : Value)
  /-- A list that contains itself. -/
  | endless

namespace Value

mutual

/-- The nodes of a nest of lists and tuples, or the first leaf that is no node, given the nodes
of the lists. -/
def flattenWith (enter : ListId → Except Stray (List NodeId)) : Value → Except Stray (List NodeId)
  | .null => .ok []
  | .node n => .ok [n]
  | .list l => enter l
  | .tuple _ xs => flattenAllWith enter xs
  | v => .error (.leaf v)

def flattenAllWith (enter : ListId → Except Stray (List NodeId)) :
    List Value → Except Stray (List NodeId)
  | [] => .ok []
  | x :: xs =>
    match flattenWith enter x with
    | .error stray => .error stray
    | .ok ns =>
      match flattenAllWith enter xs with
      | .error stray => .error stray
      | .ok ms => .ok (ns ++ ms)

end

end Value

namespace Store

/-- The nodes of a list, if lists are nested in it to a depth of less than `depth`. -/
def flattenList (s : Store) : (depth : Nat) → ListId → Except Stray (List NodeId)
  | 0, _ => .error .endless
  | d + 1, l => Value.flattenAllWith (s.flattenList d) (s.list l)

/-- Lists that do not contain themselves are nested no deeper than this. -/
def nesting (s : Store) : Nat := s.lists.size + 1

/-- The fault of a nest that cannot be flattened. The stray leaf has to be printed. -/
def strayFault (s : Store) : Stray → Fault
  | .leaf v =>
    match s.tryQuoted v with
    | .error fault => fault
    | .ok text => .strayChild (s.typeName v) text
  | .endless => .tooDeep

/-- The nodes of several nests, one after the other. -/
def flattenAll (s : Store) (xs : List Value) : Except Fault (List NodeId) :=
  match Value.flattenAllWith (s.flattenList s.nesting) xs with
  | .ok ns => .ok ns
  | .error stray => .error (s.strayFault stray)

/-- The nodes of the nests that are the items of a value. -/
def flattenItems (s : Store) (v : Value) : Except Fault (List NodeId) :=
  match s.items v with
  | .ok xs => s.flattenAll xs
  | .error _ =>
    .error (.notSpreadable "scss_lint.domain.tree.base.concat_expr_lists" (s.typeName v))

end Store

end SheetLint
